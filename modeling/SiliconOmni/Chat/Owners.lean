import SiliconOmni.Chat.Acceptance

/-! The runner that the conductor's open work belongs to: what is written, delivered and open was
given to the attached one, as long as no runner with work open is replaced. -/
namespace SiliconOmni
open Lib

/-- The runner took a message of this text. -/
def Obs.takes (runner : Handle) (text : String) : Obs → Bool
  | .sent taker message (some _) _ => taker = runner && message.text = text
  | _ => false

/-- How often the runner took a message of this text. -/
def timesTaken (trace : List Obs) (owner : Option Handle) (text : String) : ℕ :=
  match owner with
  | some runner => trace.countP (Obs.takes runner text)
  | none => 0

/-- The last START of the log. -/
def lastStart (log : List Event) : Option Event := (log.filter (·.is .start)).getLast?

theorem lastStart_append {log es : List Event} (other : ∀ e ∈ es, e.eventType ≠ .start) :
    lastStart (log ++ es) = lastStart log := by
  have hnone : es.filter (·.is .start) = [] := by
    refine List.filter_eq_nil_iff.mpr fun e he => ?_
    simpa [Event.is] using other e he
  rw [lastStart, List.filter_append, hnone, List.append_nil, lastStart]

theorem lastStart_concat {log : List Event} {e : Event} (start : e.eventType = .start) :
    lastStart (log ++ [e]) = some e := by
  have hone : [e].filter (·.is .start) = [e] := by simp [Event.is, start]
  rw [lastStart, List.filter_append, hone, List.getLast?_concat]

/-- Every unconfirmed write and every unfinished message was given to the owner, as was the START
of the open turn. -/
structure Owns (owner : Option Handle) (d : Desk) (log : List Event) (trace : List Obs) : Prop where
  written : ∀ m ∈ d.awaiting, ∃ runner dial, owner = some runner ∧
    Obs.sent runner m (some .echoed) dial ∈ trace
  /-- Messages are not told apart by their texts: as many were given as are unfinished. -/
  given : ∀ text, (d.unanswered.flatten ++ d.awaiting.map (·.text)).count text ≤
    timesTaken trace owner text
  opened : d.turnRecorded = true ∨ 0 < d.nextTurns → ∃ e runner m delivery dial,
    lastStart log = some e ∧ e.messageId = some m.id ∧ owner = some runner ∧
      Obs.sent runner m (some delivery) dial ∈ trace
  busy : d.turnRecorded = true → d.inTurn = true

/-- All that is open belongs to the runner attached; while the conductor stops, to the one it put
down. -/
def Conf.Owned (s : Conf) : Prop :=
  ∃ owner, (∀ runner, s.chat.runner = some runner → owner = some runner) ∧
    (s.chat.stopping = false → owner = s.chat.runner) ∧
      Owns owner s.chat.desk s.chat.store.events s.trace

/-- Nothing is written and unconfirmed, delivered and unfinished, open or queued to be opened. -/
structure Chat.AtRest (c : Chat) : Prop where
  awaiting : c.awaiting = []
  unanswered : c.unanswered.flatten = []
  closed : ¬(c.inTurn = true ∧ c.turnRecorded = true)
  queued : c.nextTurns = 0

section owns
variable {owner : Option Handle} {d d' : Desk} {log log' : List Event} {trace trace' : List Obs}

theorem timesTaken_append (os trace : List Obs) (owner : Option Handle) (text : String) :
    timesTaken trace owner text ≤ timesTaken (os ++ trace) owner text := by
  cases owner with
  | none => exact le_rfl
  | some runner =>
    unfold timesTaken
    dsimp only
    rw [List.countP_append]
    exact Nat.le_add_left _ _

theorem Owns.of_rest (owner : Option Handle) (awaiting : d.awaiting = [])
    (unanswered : d.unanswered.flatten = []) (closed : d.turnRecorded = false)
    (queued : d.nextTurns = 0) : Owns owner d log trace where
  written := by
    rw [awaiting]
    rintro _ ⟨⟩
  given := by
    rw [awaiting, unanswered]
    exact fun _ => Nat.zero_le _
  opened := by
    rw [closed, queued]
    rintro (⟨⟨⟩⟩ | ⟨⟨⟩⟩)
  busy := by
    rw [closed]
    rintro ⟨⟩

/-- Work that ends, and more that is said, leave the rest with its owner. -/
theorem Owns.keep (h : Owns owner d log trace) (awaiting : d'.awaiting.Sublist d.awaiting)
    (unanswered : d'.unanswered.flatten.Sublist d.unanswered.flatten)
    (open_ : d'.turnRecorded = true ∨ 0 < d'.nextTurns → d.turnRecorded = true ∨ 0 < d.nextTurns)
    (busy : d'.turnRecorded = true → d'.inTurn = true)
    (starts : lastStart log' = lastStart log) (grown : ∃ os, trace' = os ++ trace) :
    Owns owner d' log' trace' := by
  obtain ⟨os, rfl⟩ := grown
  refine ⟨fun m hm => ?_, fun text => ?_, fun hopen => ?_, busy⟩
  · obtain ⟨runner, dial, howner, hsent⟩ := h.written m (awaiting.subset hm)
    exact ⟨runner, dial, howner, List.mem_append_right os hsent⟩
  · have hle := (unanswered.append (awaiting.map (·.text))).count_le text
    exact hle.trans ((h.given text).trans (timesTaken_append os trace owner text))
  · obtain ⟨e, runner, m, delivery, dial, hlast, hid, howner, hsent⟩ := h.opened (open_ hopen)
    exact ⟨e, runner, m, delivery, dial, starts.trans hlast, hid, howner,
      List.mem_append_right os hsent⟩

end owns

section steps
variable {owner : Option Handle} {s t : Conf}

theorem Gave.owns {d : Delta} (gave : Gave s t d)
    (h : Owns owner d.desk (s.chat.store.events ++ d.events) (d.obs ++ s.trace)) :
    Owns owner t.chat.desk t.chat.store.events t.trace := by
  obtain ⟨es, hlog, -, hes⟩ := gave.log
  obtain ⟨os, htrace, -⟩ := gave.trace
  rw [gave.desk, hlog, htrace]
  refine h.keep (.refl _) (.refl _) id h.busy (lastStart_append fun e he hstart => ?_) ⟨os, rfl⟩
  have := hes e he
  rw [hstart] at this
  cases this

theorem Quiet.owns (quiet : Quiet s t) (desk : t.chat.desk = s.chat.desk)
    (h : Owns owner s.chat.desk s.chat.store.events s.trace) :
    Owns owner t.chat.desk t.chat.store.events t.trace := by
  obtain ⟨es, hlog, -, hes⟩ := quiet.log
  obtain ⟨os, htrace, -⟩ := quiet.trace
  rw [desk, hlog, htrace]
  refine h.keep (.refl _) (.refl _) id h.busy (lastStart_append fun e he hstart => ?_) ⟨os, rfl⟩
  have := hes e he
  rw [hstart] at this
  cases this

/-- A change of the desk that opens nothing. -/
theorem Gave.eases {d : Delta} (gave : Gave s t d)
    (h : Owns owner s.chat.desk s.chat.store.events s.trace)
    (awaiting : d.desk.awaiting.Sublist s.chat.desk.awaiting)
    (unanswered : d.desk.unanswered.flatten.Sublist s.chat.desk.unanswered.flatten)
    (open_ : d.desk.turnRecorded = true ∨ 0 < d.desk.nextTurns →
      s.chat.desk.turnRecorded = true ∨ 0 < s.chat.desk.nextTurns)
    (busy : d.desk.turnRecorded = true → d.desk.inTurn = true)
    (other : ∀ e ∈ d.events, e.eventType ≠ .start) :
    Owns owner t.chat.desk t.chat.store.events t.trace :=
  gave.owns (h.keep awaiting unanswered open_ busy (lastStart_append other) ⟨_, rfl⟩)

theorem messageId_of_delivers {e : Event} {id : String} (h : deliveredIds [e] = [id]) :
    e.messageId = some id := by
  have hmem : id ∈ deliveredIds [e] := by rw [h]; exact List.mem_singleton_self id
  obtain ⟨e', he', -, hid⟩ := mem_deliveredIds.mp hmem
  rwa [List.mem_singleton.mp he'] at hid

theorem count_remembered (unanswered : List (List String)) (text text' : String) (nextTurn : Bool) :
    (remembered unanswered text nextTurn).flatten.count text' =
      unanswered.flatten.count text' + [text].count text' := by
  unfold remembered
  split
  · rw [List.flatten_cons, List.flatten_cons, List.append_assoc, List.count_append, List.count_append,
      List.count_append]
    omega
  · rw [List.flatten_append, List.count_append]
    rfl

variable {runner : Handle} {message : PendingMessage} {rest : List PendingMessage}

theorem takes_sent (runner : Handle) (message : PendingMessage) (delivery : Delivery)
    (dial : List String) (text : String) :
    [Obs.sent runner message (some delivery) dial].countP (Obs.takes runner text) =
      [message.text].count text := by
  by_cases htext : message.text = text
  · simp [Obs.takes, htext]
  · simp [Obs.takes, htext]

theorem owns_written (h : Owns (some runner) s.chat.desk s.chat.store.events s.trace) :
    let d := s.written runner message rest
    Owns (some runner) d.desk (s.chat.store.events ++ d.events) (d.obs ++ s.trace) := by
  refine ⟨fun m hm => ?_, fun text => ?_, fun hopen => ?_, fun _ => rfl⟩
  · rcases List.mem_append.mp hm with hm | hm
    · obtain ⟨r, dial, howner, hsent⟩ := h.written m hm
      exact ⟨r, dial, howner, List.mem_append_right _ hsent⟩
    · rw [List.mem_singleton.mp hm]
      exact ⟨runner, s.chat.usable, rfl, List.mem_cons_self⟩
  · have hgiven := h.given text
    show (s.chat.unanswered.flatten ++ (s.chat.awaiting ++ [message]).map (·.text)).count text ≤
      ([Obs.sent runner message (some .echoed) s.chat.usable] ++ s.trace).countP
        (Obs.takes runner text)
    rw [List.countP_append, takes_sent, List.map_append, ← List.append_assoc, List.count_append,
      Nat.add_comm]
    exact Nat.add_le_add_left hgiven _
  · obtain ⟨e, r, m, delivery, dial, hlast, hid, howner, hsent⟩ := h.opened hopen
    refine ⟨e, r, m, delivery, dial, ?_, hid, howner, List.mem_append_right _ hsent⟩
    rw [← hlast]
    exact lastStart_append (by simp [Conf.written])

/-- A START is recorded, or the turn was already open. -/
theorem opened_of_opening {e : Event} {log : List Event} {d : Desk} {trace trace' : List Obs}
    (h : Owns owner d log trace) (grown : ∃ os, trace' = os ++ trace)
    (hstart : e.eventType = .start ∨ d.turnRecorded = true) (hid : e.messageId = some message.id)
    (hsent : ∃ delivery dial, owner = some runner ∧
      Obs.sent runner message (some delivery) dial ∈ trace') :
    ∃ e' runner m delivery dial, lastStart (log ++ [e]) = some e' ∧ e'.messageId = some m.id ∧
      owner = some runner ∧ Obs.sent runner m (some delivery) dial ∈ trace' := by
  by_cases htype : e.eventType = .start
  · obtain ⟨delivery, dial, howner, hsent⟩ := hsent
    exact ⟨e, runner, message, delivery, dial, lastStart_concat htype, hid, howner, hsent⟩
  · obtain ⟨os, rfl⟩ := grown
    obtain ⟨e', r, m, delivery, dial, hlast, hid', howner, hsent⟩ :=
      h.opened (.inl (hstart.resolve_left htype))
    refine ⟨e', r, m, delivery, dial, ?_, hid', howner, List.mem_append_right _ hsent⟩
    rw [lastStart_append (by simpa using htype), hlast]

theorem owns_delivered {delivery : Delivery}
    (started : s.chat.inTurn = true → s.chat.turnRecorded = true)
    (h : Owns (some runner) s.chat.desk s.chat.store.events s.trace) :
    let d := s.delivered runner message rest delivery
    Owns (some runner) d.desk (s.chat.store.events ++ d.events) (d.obs ++ s.trace) := by
  intro d
  have hobs : ∃ os, d.obs = os ++ [.sent runner message (some delivery) s.chat.usable] := ⟨_, rfl⟩
  obtain ⟨os, hos⟩ := hobs
  have hsent : Obs.sent runner message (some delivery) s.chat.usable ∈ d.obs ++ s.trace := by
    rw [hos]
    simp
  refine ⟨fun m hm => ?_, fun text => ?_, fun _ => ?_, fun _ => rfl⟩
  · obtain ⟨r, dial, howner, hmem⟩ := h.written m hm
    exact ⟨r, dial, howner, List.mem_append_right _ hmem⟩
  · have hgiven := h.given text
    rw [List.count_append] at hgiven
    show ((remembered s.chat.unanswered message.text _).flatten ++ s.chat.awaiting.map (·.text)).count
      text ≤ (d.obs ++ s.trace).countP (Obs.takes runner text)
    rw [List.count_append, count_remembered, hos, List.countP_append, List.countP_append, takes_sent]
    have hle : s.chat.unanswered.flatten.count text +
        (s.chat.awaiting.map (·.text)).count text ≤ s.trace.countP (Obs.takes runner text) := hgiven
    omega
  · refine opened_of_opening h ⟨_, rfl⟩ ?_
      (messageId_of_delivers (opening_delivers s.chat message delivery)) ⟨_, _, rfl, hsent⟩
    cases hturn : s.chat.inTurn with
    | true => exact .inr (started hturn)
    | false =>
      left
      simp [Chat.opening, hturn, Event.with_, Event.saying, Event.new]

theorem owns_confirmed {event : Event} {opening : EventType}
    (confirming : s.Confirming event message rest opening)
    (started : opening = .injected → s.chat.turnRecorded = true)
    (h : Owns owner s.chat.desk s.chat.store.events s.trace) :
    let d := s.confirmed message rest event opening
    Owns owner d.desk (s.chat.store.events ++ d.events) (d.obs ++ s.trace) := by
  intro d
  have hawaiting : s.chat.desk.awaiting = message :: rest := confirming.awaiting
  obtain ⟨runner, dial, howner, hsent⟩ := h.written message (by
    rw [hawaiting]
    exact List.mem_cons_self)
  refine ⟨fun m hm => ?_, fun text => ?_, fun _ => ?_, fun _ => rfl⟩
  · obtain ⟨r, dial, howner, hmem⟩ := h.written m (by
      rw [hawaiting]
      exact List.mem_cons_of_mem _ hm)
    exact ⟨r, dial, howner, List.mem_append_right _ hmem⟩
  · have hgiven := h.given text
    rw [hawaiting, List.map_cons, List.count_append, ← List.singleton_append, List.count_append] at hgiven
    refine le_trans ?_ (timesTaken_append d.obs s.trace owner text)
    show ((remembered s.chat.unanswered message.text _).flatten ++ rest.map (·.text)).count text ≤ _
    rw [List.count_append, count_remembered]
    have hle : s.chat.unanswered.flatten.count text + ([message.text].count text +
        (rest.map (·.text)).count text) ≤ timesTaken s.trace owner text := hgiven
    omega
  · have ho := Event.confirmedAs_isOpening confirming.opens
    refine opened_of_opening h ⟨_, rfl⟩ ?_ (messageId_of_delivers (confirmation_delivers s.chat ho))
      ⟨_, dial, howner, List.mem_append_right _ hsent⟩
    rcases ho with rfl | rfl
    · exact .inl rfl
    · exact .inr (started rfl)

end steps

section calls
variable [Host] {s t : Conf} {call : Call} {calls : List Call}

/-- A replacement finds nothing open, and a message joins no turn whose START is not in the log. -/
structure Conf.Careful (s : Conf) (call : Call) (t : Conf) : Prop where
  replaces : (∃ rung why next, call = .replace rung why next) → s.chat.AtRest
  delivers : call = .deliver → s.chat.inTurn = true → s.chat.turnRecorded = false →
    t.chat.turnRecorded = false
  confirms : ∀ epoch report, call = .absorb epoch report → s.chat.runnerEpoch = some epoch →
    (s.chat.takenIn epoch report false).confirmedAs = some .injected → s.chat.turnRecorded = true

theorem takenIn_not_start (c : Chat) (epoch : ℕ) (report : Report) (late : Bool) :
    (c.logged (c.takenIn epoch report late)).eventType ≠ .start := by
  show report.type.eventType ≠ .start
  cases report.type <;> decide

omit [Host] in
theorem reacted_closes {d d' : Desk} {autoremove : Bool} {e : Event} {obs : List Obs}
    (reacted : Reacted d autoremove e calls d' obs) :
    d'.unanswered = d.unanswered ∧ d'.stopping = d.stopping ∧
      (d'.turnRecorded = true ∨ 0 < d'.nextTurns → d.turnRecorded = true ∨ 0 < d.nextTurns) ∧
        ((d.turnRecorded = true → d.inTurn = true) → d'.turnRecorded = true → d'.inTurn = true) := by
  cases reacted with
  | drained | heard | fatalCompacting | fatalRecovering | lostLogin | crashed => exact ⟨rfl, rfl, id, id⟩
  | drainedEnd =>
    refine ⟨rfl, rfl, ?_, fun _ => ?_⟩
    · rintro (⟨⟨⟩⟩ | ⟨⟨⟩⟩)
    · rintro ⟨⟩
  | endedRecovering | endedFull | endedFailed | endedDone =>
    refine ⟨rfl, rfl, ?_, fun _ => ?_⟩
    · rintro (⟨⟨⟩⟩ | hqueued)
      exact .inr hqueued
    · rintro ⟨⟩

omit [Host] in
/-- The same owner, where the runner stays. -/
theorem Conf.Owned.keep (h : s.Owned) (runner : t.chat.runner = s.chat.runner)
    (stopping : t.chat.stopping = s.chat.stopping)
    (owns : ∀ owner, (∀ r, s.chat.runner = some r → owner = some r) →
      Owns owner s.chat.desk s.chat.store.events s.trace →
        Owns owner t.chat.desk t.chat.store.events t.trace) : t.Owned := by
  obtain ⟨owner, attached, live, h⟩ := h
  refine ⟨owner, fun r hr => attached r (runner.symm.trans hr), fun hlive => ?_, owns owner attached h⟩
  rw [live (stopping.symm.trans hlive), runner]

omit [Host] in
theorem owned_eases {d : Delta} (h : s.Owned) (gave : Gave s t d)
    (runner : d.rest.runner = s.chat.runner) (stopping : d.desk.stopping = s.chat.stopping)
    (awaiting : d.desk.awaiting.Sublist s.chat.desk.awaiting)
    (unanswered : d.desk.unanswered.flatten.Sublist s.chat.desk.unanswered.flatten)
    (open_ : d.desk.turnRecorded = true ∨ 0 < d.desk.nextTurns →
      s.chat.desk.turnRecorded = true ∨ 0 < s.chat.desk.nextTurns)
    (busy : (s.chat.desk.turnRecorded = true → s.chat.desk.inTurn = true) →
      d.desk.turnRecorded = true → d.desk.inTurn = true)
    (other : ∀ e ∈ d.events, e.eventType ≠ .start) : t.Owned := by
  refine h.keep (gave.runner.trans runner) ?_ fun _ _ owns => ?_
  · exact (congrArg Desk.stopping gave.desk).trans stopping
  · exact gave.eases owns awaiting unanswered open_ (busy owns.busy) other

/-- Once the runner is put down and its turn closed, nothing is open. -/
theorem owned_closed {provider : String} {extra : Fields} {retry : Bool} (h : s.Owned)
    (gave : Gave s t (s.closed provider extra retry)) : t.Owned := by
  obtain ⟨owner, -, -, owns⟩ := h
  have hrunner : t.chat.runner = none := gave.runner
  refine ⟨none, fun r hr => ?_, fun _ => hrunner.symm, gave.owns (.of_rest none rfl rfl ?_ rfl)⟩
  · rw [hrunner] at hr
    cases hr
  · show (s.chat.turnRecorded && !s.chat.inTurn) = false
    cases hrec : s.chat.turnRecorded with
    | false => rfl
    | true => rw [show s.chat.inTurn = true from owns.busy hrec]; rfl

omit [Host] in
theorem without_sublist (gone : Option String) (queue : List PendingMessage) :
    (MetaData.without gone queue).Sublist queue := by
  cases gone with
  | none => exact .refl _
  | some id => exact List.filter_sublist

theorem owned_queued {stage : RecoveryStage} {text : String} {fresh : Bool} (h : s.Owned)
    (gave : Gave s t (s.queuedRecovery stage text fresh)) : t.Owned :=
  owned_eases h gave rfl rfl (without_sublist _ _) (.refl _) id id (by simp [Conf.queuedRecovery, Conf.saved])

omit [Host] in
theorem owned_saved {next : Option Recovery} (h : s.Owned)
    (gave : Gave s t (s.saved next none none)) : t.Owned :=
  owned_eases h gave rfl rfl (without_sublist _ _) (.refl _) id id (by simp [Conf.saved])

theorem owned_ran (h : s.Owned) (careful : s.Careful call t) (ran : Ran s call calls t) : t.Owned := by
  have tail : s.chat.unanswered.tail.flatten.Sublist s.chat.unanswered.flatten := by
    cases s.chat.unanswered with
    | nil => exact .refl _
    | cons group later => exact List.sublist_append_right _ _
  cases ran with
  | moved _ still =>
    exact h.keep still.runner (congrArg Desk.stopping still.desk) fun _ _ owns =>
      still.quiet.owns still.desk owns
  | @replaced rung why next _ _ _ desk quiet =>
    obtain ⟨owner, -, -, owns⟩ := h
    have rest := careful.replaces ⟨rung, why, next, rfl⟩
    have closed : s.chat.turnRecorded = false := by
      cases hrec : s.chat.turnRecorded with
      | false => rfl
      | true => exact absurd ⟨owns.busy hrec, hrec⟩ rest.closed
    refine ⟨t.chat.runner, fun _ => id, fun _ => rfl, .of_rest _ ?_ ?_ ?_ ?_⟩
    all_goals rw [desk]
    · exact rest.awaiting
    · exact rest.unanswered
    · exact closed
    · exact rest.queued
  | enqueued gave =>
    exact owned_eases h gave rfl rfl (.refl _) (.refl _) id id (by simp [Conf.enqueued])
  | written delivering gave =>
    refine h.keep gave.runner (congrArg Desk.stopping gave.desk) fun owner attached owns => ?_
    obtain rfl := attached _ delivering.runner
    exact gave.owns (owns_written owns)
  | @delivered runner message rest delivery _ delivering _ gave =>
    refine h.keep gave.runner (congrArg Desk.stopping gave.desk) fun owner attached owns => ?_
    obtain rfl := attached _ delivering.runner
    refine gave.owns (owns_delivered (fun hturn => ?_) owns)
    cases hrec : s.chat.turnRecorded with
    | true => rfl
    | false =>
      have hnot := careful.delivers rfl hturn hrec
      have hyes : t.chat.turnRecorded = true := congrArg Desk.turnRecorded gave.desk
      rw [hnot] at hyes
      cases hyes
  | refusedFull _ gave | refusedMidTurn _ _ gave | refolded _ _ _ gave =>
    exact owned_eases h gave rfl rfl (.refl _) (.refl _) id id (by simp [Conf.turned])
  | late event _ gave =>
    refine owned_eases h gave rfl rfl (.refl _) (.refl _) id id fun e he => ?_
    rw [List.mem_singleton.mp he, event]
    exact takenIn_not_start _ _ _ _
  | reacted event _ _ reacted gave =>
    obtain ⟨unanswered, stopping, open_, busy⟩ := reacted_closes reacted
    obtain ⟨-, awaiting, -, -⟩ := reacted_queues reacted
    refine owned_eases h gave rfl stopping (awaiting ▸ .refl _) (unanswered ▸ .refl _) open_ busy ?_
    intro e he
    rw [List.mem_singleton.mp he, event]
    exact takenIn_not_start _ _ _ _
  | confirmed attached confirming gave =>
    refine h.keep gave.runner (congrArg Desk.stopping gave.desk) fun owner _ owns => ?_
    refine gave.owns (owns_confirmed confirming (fun hinjected => ?_) owns)
    exact careful.confirms _ _ rfl attached (confirming.opens.trans (congrArg some hinjected))
  | closed _ _ gave => exact owned_closed h gave
  | compacting _ _ gave =>
    exact owned_eases h gave rfl rfl (without_sublist _ _) (.refl _) id (fun _ _ => rfl)
      (by simp [Conf.saved])
  | notCompacting _ gave =>
    exact owned_eases h gave rfl rfl (without_sublist _ _) (.refl _) id id (by simp [Conf.saved])
  | queued gave => exact owned_queued h gave
  | queuedFresh closed gave => exact owned_queued (owned_closed h closed) gave
  | gaveUp closed gave => exact owned_saved (owned_closed h closed) gave
  | nothingToEnd _ gave | proceeded _ _ gave =>
    refine owned_eases h gave rfl rfl (.refl _) (List.nil_sublist _) ?_ (fun _ => ?_) (by simp [Conf.turned])
    · rintro (⟨⟨⟩⟩ | hqueued)
      exact .inr hqueued
    · rintro ⟨⟩
  | advanced _ _ gave =>
    refine owned_eases h gave rfl rfl (without_sublist _ _) (List.nil_sublist _) ?_ (fun _ => ?_)
      (by simp [Conf.saved])
    · rintro (⟨⟨⟩⟩ | hqueued)
      exact .inr hqueued
    · rintro ⟨⟩
  | nextTurn later gave =>
    exact owned_eases h gave rfl rfl (.refl _) tail (fun _ => .inr later) (fun _ _ => rfl)
      (by simp [Conf.turned])
  | awaited _ _ gave =>
    exact owned_eases h gave rfl rfl (.refl _) tail id (fun _ _ => rfl) (by simp [Conf.turned])
  | finished _ _ _ gave =>
    exact owned_eases h gave rfl rfl (.refl _) tail id id (by simp [Conf.turned])
  | shutting gave =>
    obtain ⟨owner, -, -, owns⟩ := h
    have hrunner : t.chat.runner = none := gave.runner
    have hstopping : t.chat.stopping = true := congrArg Desk.stopping gave.desk
    refine ⟨owner, fun r hr => ?_, fun hlive => ?_, ?_⟩
    · rw [hrunner] at hr
      cases hr
    · rw [hstopping] at hlive
      cases hlive
    · exact gave.eases owns (.refl _) (.refl _) id owns.busy (by simp [Conf.turned])
  | stopped _ gave =>
    refine owned_eases h gave rfl rfl (List.nil_sublist _) (.refl _) ?_ (fun _ => ?_) fun e he => ?_
    · rintro (⟨⟨⟩⟩ | ⟨⟨⟩⟩)
    · rintro ⟨⟩
    · simp only [Conf.stopping] at he
      split_ifs at he
      · rw [List.mem_singleton.mp he]
        simp [Chat.stopEnd, Event.new, Event.with_, Event.from_, Event.about]
      · cases he

end calls

section runs
variable [Host]

/-- The attached runner would take a message to echo it, or not at all. -/
def Conf.echoing (s : Conf) : Bool :=
  s.chat.runner.all fun runner => (s.env.send s.calls runner).toOption.all (· = .echoed)

/-- Nothing is open when a runner is replaced, and no message joins a turn whose START is not in
the log. -/
def Conf.HandsOver (s : Conf) : Call → Prop
  | .replace .. => s.chat.AtRest
  | .deliver => s.chat.inTurn = true → s.chat.turnRecorded = true ∨ s.echoing = true
  | .absorb epoch report => s.chat.runnerEpoch = some epoch →
      (s.chat.takenIn epoch report false).confirmedAs = some .injected → s.chat.turnRecorded = true
  | _ => True

def System.Handover (s : System) : Move → Prop
  | .advance => ∀ call ∈ s.stack.head?, s.conf.HandsOver call
  | _ => True

omit [Host] in
theorem deliver_unrecorded {s : Conf} (echoing : s.echoing = true) :
    wp deliver (fun _ t => t.chat.turnRecorded = s.chat.turnRecorded) (fun _ _ => True) s := by
  unfold deliver
  simp only [wp_bind, wp_self]
  split
  · next message rest runner _ hrunner =>
    refine (wp_ite _ _).mpr ⟨fun _ => rfl, fun _ => ?_⟩
    simp only [wp_bind, wp_asks, wp_note]
    have hanswer : (s.env.send s.calls runner).toOption.all (· = .echoed) = true := by
      simpa [Conf.echoing, hrunner] using echoing
    split
    · rfl
    · rfl
    · next delivery hne hsend =>
      rw [hsend] at hanswer
      exact absurd (of_decide_eq_true hanswer) hne
  · rfl

theorem handover_careful {s : Conf} {call : Call} {rest : List Call}
    (allowed : System.Handover ⟨s, call :: rest, false⟩ .advance) :
    wp (run call) (fun _ t => s.Careful call t) (fun _ _ => True) s := by
  have allowed : s.HandsOver call := allowed call rfl
  by_cases hdeliver : call = .deliver
  · subst hdeliver
    by_cases hopen : s.chat.inTurn = true ∧ s.chat.turnRecorded = false
    · have echoing := (allowed hopen.1).resolve_left (by simp [hopen.2])
      refine wp_mono (deliver_unrecorded echoing) (fun _ t ht => ⟨?_, ?_, ?_⟩) fun _ _ => id
      · rintro ⟨_, _, _, ⟨⟩⟩
      · exact fun _ _ hrec => ht.trans hrec
      · rintro _ _ ⟨⟩
    · refine wp_mono (run_ran .deliver) (fun _ t _ => ⟨?_, ?_, ?_⟩) fun _ _ _ => trivial
      · rintro ⟨_, _, _, ⟨⟩⟩
      · exact fun _ hturn hrec => absurd ⟨hturn, hrec⟩ hopen
      · rintro _ _ ⟨⟩
  · refine wp_mono (run_ran call) (fun _ t _ => ⟨?_, ?_, ?_⟩) fun _ _ _ => trivial
    · rintro ⟨_, _, _, rfl⟩
      exact allowed
    · exact fun heq => absurd heq hdeliver
    · rintro _ _ rfl
      exact allowed

theorem owned_invariant :
    System.Invariant System.Handover (fun s _ => Accounted s.chat.desk s.books ∧ s.Owned)
      (fun s => s.books.Sound) where
  sound := id
  blank := blank_sound
  opened := fun dead opened => by
    refine ⟨accounted_opened dead opened, none, fun r hr => ?_, fun _ => opened.runner.symm, ?_⟩
    · rw [opened.runner] at hr
      cases hr
    · rw [opened.desk]
      exact .of_rest none rfl rfl rfl rfl
  failed := sound_openFailed
  left := fun h _ => h.1.sound
  ended := fun h _ => h.1.sound
  wake := fun h _ _ _ => h
  deadline := fun h _ _ => h
  call := fun _ allowed h =>
    wp_mono (wp_and (run_ran _) (handover_careful allowed))
      (fun _ _ ht => ⟨accounted_ran h.1 ht.1, owned_ran h.2 ht.2 ht.1⟩)
      fun _ _ died => sound_died h.1 died.1
  published := fun h => h.mono le_rfl rfl

/-- What is written, delivered and open was given to the runner that is attached. -/
theorem System.work_owned {s : System} (h : System.Reach System.Handover s)
    (running : s.ended = false) : s.conf.Owned :=
  ((owned_invariant.holds h).live running).2

end runs

instance (c : Chat) : Decidable c.AtRest :=
  decidable_of_iff (c.awaiting = [] ∧ c.unanswered.flatten = [] ∧
    ¬(c.inTurn = true ∧ c.turnRecorded = true) ∧ c.nextTurns = 0)
    ⟨fun h => ⟨h.1, h.2.1, h.2.2.1, h.2.2.2⟩, fun h => ⟨h.awaiting, h.unanswered, h.closed, h.queued⟩⟩

section samples
attribute [local instance] Host.ascii

instance (s : Conf) : (call : Call) → Decidable (s.HandsOver call)
  | .replace .. => inferInstanceAs (Decidable s.chat.AtRest)
  | .deliver => inferInstanceAs
      (Decidable (s.chat.inTurn = true → s.chat.turnRecorded = true ∨ s.echoing = true))
  | .absorb epoch report => inferInstanceAs (Decidable (s.chat.runnerEpoch = some epoch →
      (s.chat.takenIn epoch report false).confirmedAs = some .injected → s.chat.turnRecorded = true))
  | .launchOnce | .enqueue _ | .dispatchQueued | .flush | .refused _ | .attempt .. | .unauthenticated _
  | .failed .. | .recoverContext _ | .startHandoff | .recoveryMessage .. | .recoveryEnded _
  | .recoveryFailed _ | .resumeRecovery | .finishTurn | .settleIdle | .apply _ | .shutdown
  | .stopped | .publish => .isTrue trivial

instance (s : System) : (m : Move) → Decidable (s.Handover m)
  | .advance => inferInstanceAs (Decidable (∀ call ∈ s.stack.head?, s.conf.HandsOver call))
  | .receive .. | .deadline _ | .reopen .. => .isTrue trivial

namespace System

/-- Between turns the conductor moves from claude-code to codex. -/
theorem work_owned_switch :
    ∃ s : System, s.conf.chat.runner.map (·.name) = some "codex" ∧
      s.conf.chat.unanswered = [["b"]] ∧ s.conf.Owned := by
  let moves : List Move :=
    .receive (.send "a") (Env.answering "claude-code") :: List.replicate 8 .advance ++
      .receive (.heard 1 { type := .end_ }) (Env.answering "claude-code") ::
        List.replicate 6 .advance ++
      .receive (.send "b") (Env.answering "codex") :: List.replicate 8 .advance
  have run : ∃ s, after "chat" ["claude-code", "codex"] Env.ascii moves = some s ∧
      s.ended = false ∧ s.conf.chat.runner.map (·.name) = some "codex" ∧
        s.conf.chat.unanswered = [["b"]] :=
    ⟨_, Option.eq_some_of_isSome (by decide +kernel), by decide +kernel, by decide +kernel,
      by decide +kernel⟩
  obtain ⟨s, hs, live, runner, unanswered⟩ := run
  have start : Reach Handover (fresh "chat" ["claude-code", "codex"] none Env.ascii) :=
    .init ⟨"chat", ["claude-code", "codex"], none, Env.ascii, rfl⟩
  have along : machine.Along Handover (fresh "chat" ["claude-code", "codex"] none Env.ascii) moves := by
    decide +kernel
  exact ⟨s, runner, unanswered, work_owned (start.exec along hs) live⟩

/-- A message is delivered to claude-code, which dies before its END, and another to codex. -/
def diedMidTurn : List Move :=
  let gone : Env := { Env.answering "codex" with alive := fun _ runner => runner.name ≠ "claude-code" }
  .receive (.send "a") (Env.answering "claude-code") :: List.replicate 8 .advance ++
    .receive (.send "b") gone :: List.replicate 8 .advance

/-- The message that claude-code never finished is credited to codex. -/
theorem work_disowned :
    ∃ s : System, Reachable s ∧ s.ended = false ∧ s.stack = [] ∧ ¬s.conf.Owned := by
  have run : ∃ s, after "chat" ["claude-code", "codex"] Env.ascii diedMidTurn = some s ∧
      s.ended = false ∧ s.stack.length = 0 ∧
        ∃ runner, s.conf.chat.runner = some runner ∧ s.conf.chat.unanswered = [["a", "b"]] ∧
          timesTaken s.conf.trace (some runner) "a" = 0 := by
    exact ⟨_, Option.eq_some_of_isSome (by decide +kernel), by decide +kernel, by decide +kernel,
      _, Option.eq_some_of_isSome (by decide +kernel), by decide +kernel, by decide +kernel⟩
  obtain ⟨s, hs, live, stack, runner, attached, unanswered, never⟩ := run
  refine ⟨s, reachable_after hs, live, List.length_eq_zero_iff.mp stack, ?_⟩
  rintro ⟨owner, hattached, -, owns⟩
  obtain rfl := hattached runner attached
  have hgiven := owns.given "a"
  rw [never] at hgiven
  have hcount : (s.conf.chat.unanswered.flatten ++ s.conf.chat.awaiting.map (·.text)).count "a" ≠ 0 := by
    rw [unanswered]
    simp
  exact hcount (Nat.le_zero.mp hgiven)

end System
end samples
end SiliconOmni
