import SiliconOmni.Claude.Stream

/-! What one line of Claude's output does to the queue of written lines and to the turn. -/
namespace SiliconOmni.Claude

/-- The texts that a list of events confirms. -/
def confirmations (events : List Event) : List String :=
  (events.filter (·.is .confirmed)).map (·.text)

@[simp] theorem confirmations_append (a b : List Event) :
    confirmations (a ++ b) = confirmations a ++ confirmations b := by
  simp [confirmations]

/-- Whether a turn is open after an event, given whether one was open before it: a confirmation
opens one or joins the open one, and has to say which. -/
def heard (turnOpen : Bool) (e : Event) : Option Bool :=
  if e.is .confirmed then
    if e.extra.lookup CONFIRMED_AS =
        some (.string (if turnOpen then EventType.injected else .start).name) then some true
    else none
  else some (turnOpen && !e.is .end_)

def turnAfter (turnOpen : Bool) (events : List Event) : Option Bool := events.foldlM heard turnOpen

theorem turnAfter_append (turnOpen : Bool) (a b : List Event) :
    turnAfter turnOpen (a ++ b) = (turnAfter turnOpen a).bind (turnAfter · b) :=
  List.foldlM_append

/-- Neither a confirmation nor the end of a turn. -/
def Plain (e : Event) : Prop := e.eventType ≠ .confirmed ∧ e.eventType ≠ .end_

variable {events : List Event}

theorem confirmations_plain (h : ∀ e ∈ events, Plain e) : confirmations events = [] := by
  rw [confirmations, List.map_eq_nil_iff, List.filter_eq_nil_iff]
  intro e he
  simpa [Event.is] using (h e he).1

theorem heard_plain {e : Event} (h : Plain e) (turnOpen : Bool) :
    heard turnOpen e = some turnOpen := by
  simp [heard, Event.is, h.1, h.2]

theorem turnAfter_plain (h : ∀ e ∈ events, Plain e) (turnOpen : Bool) :
    turnAfter turnOpen events = some turnOpen := by
  induction events with
  | nil => rfl
  | cons e rest ih =>
    obtain ⟨he, hrest⟩ := List.forall_mem_cons.mp h
    have hfirst : turnAfter turnOpen [e] = some turnOpen := by
      simp [turnAfter, heard_plain he]
    rw [← List.singleton_append, turnAfter_append, hfirst]
    exact ih hrest

namespace Stream

/-- `Runner::send`: the line is registered before it reaches the pipe, and taken back where the
pipe fails. -/
def send (s : Stream) (text : String) (ok : Bool) : Stream :=
  if ok then s.expectUser text else (s.expectUser text).forgetLastUser

@[simp] theorem send_expected (s : Stream) (text : String) (ok : Bool) :
    (s.send text ok).expected = if ok then s.expected ++ [text] else s.expected := by
  cases ok with
  | true => rfl
  | false => exact List.dropLast_concat

@[simp] theorem send_turnOpen (s : Stream) (text : String) (ok : Bool) :
    (s.send text ok).turnOpen = s.turnOpen := by
  cases ok <;> rfl

/-- The first `count` lines of the queue are confirmed, in order, and no other. -/
structure Advanced (s : Stream) (count : ℕ) (r : List Event × Stream) : Prop where
  enough : count ≤ s.expected.length
  confirmed : confirmations r.1 = s.expected.take count
  expected : r.2.expected = s.expected.drop count
  turn : turnAfter s.turnOpen r.1 = some r.2.turnOpen

variable {s t : Stream} {r : List Event × Stream} {count : ℕ}

/-- Nothing is confirmed, and the turn stays as it is. -/
structure Spoke (s : Stream) (r : List Event × Stream) : Prop where
  plain : ∀ e ∈ r.1, Plain e
  expected : r.2.expected = s.expected
  turnOpen : r.2.turnOpen = s.turnOpen

theorem Spoke.nothing (s : Stream) : Spoke s ([], s) :=
  ⟨fun _ he => absurd he List.not_mem_nil, rfl, rfl⟩

theorem Spoke.one {e : Event} (plain : Plain e) (expected : t.expected = s.expected)
    (turnOpen : t.turnOpen = s.turnOpen) : Spoke s ([e], t) :=
  ⟨fun _ he => List.mem_singleton.mp he ▸ plain, expected, turnOpen⟩

theorem Spoke.append {first later : List Event} {u : Stream} (h : Spoke s (first, t))
    (h' : Spoke t (later, u)) : Spoke s (first ++ later, u) := by
  refine ⟨fun e he => ?_, h'.expected.trans h.expected, h'.turnOpen.trans h.turnOpen⟩
  rcases List.mem_append.mp he with he | he
  · exact h.plain e he
  · exact h'.plain e he

theorem Spoke.advanced (h : Spoke s r) : Advanced s 0 r where
  enough := Nat.zero_le _
  confirmed := confirmations_plain h.plain
  expected := h.expected
  turn := by rw [turnAfter_plain h.plain, h.turnOpen]

theorem confirm_advanced (skipped count : ℕ) (enough : count ≤ s.expected.length) :
    Advanced s count (s.confirm skipped count) := by
  induction count generalizing s skipped with
  | zero => exact (Spoke.nothing s).advanced
  | succ count ih =>
    rw [confirm]
    cases hs : s.expected with
    | nil =>
      rw [hs] at enough
      cases enough
    | cons text rest =>
      rw [hs] at enough
      have later := @ih { s with expected := rest, turnOpen := true } (skipped - 1)
        (Nat.le_of_succ_le_succ enough)
      have confirms : ∀ e : Event, e.eventType = .confirmed → e.text = text →
          e.extra.lookup CONFIRMED_AS =
            some (.string (if s.turnOpen then EventType.injected else .start).name) →
          Advanced s (count + 1)
            (e :: (confirm { s with expected := rest, turnOpen := true } (skipped - 1) count).1,
              (confirm { s with expected := rest, turnOpen := true } (skipped - 1) count).2) := by
        intro e htype htext hopening
        have hheard : heard s.turnOpen e = some true := by simp [heard, Event.is, htype, hopening]
        refine ⟨hs ▸ enough, ?_, ?_, ?_⟩
        · have hfirst : confirmations [e] = [text] := by simp [confirmations, Event.is, htype, htext]
          rw [← List.singleton_append, confirmations_append, hfirst, later.confirmed, hs]
          rfl
        · rw [later.expected, hs]
          rfl
        · have hturn := later.turn
          simp only [turnAfter] at hturn ⊢
          rw [List.foldlM_cons, hheard]
          exact hturn
      have inferred : CONFIRMED_AS ≠ "inferred" := by decide
      dsimp only
      by_cases hskipped : 0 < skipped
      · rw [if_pos hskipped]
        refine confirms _ rfl rfl ?_
        exact (Entries.lookup_insert_ne _ _ inferred).trans (Entries.lookup_insert_self _ _ _)
      · rw [if_neg hskipped]
        exact confirms _ rfl rfl (Entries.lookup_insert_self _ _ _)

/-- The first place in the queue that the echoes match from. -/
def window (s : Stream) (texts : List String) : Option ℕ :=
  (List.range (s.expected.length - texts.length + 1)).find? (matchesAt s.expected texts)

/-- How many lines a replay of these texts confirms. -/
def delivers (s : Stream) (texts : List String) : ℕ :=
  if texts = [] ∨ s.expected.length < texts.length then 0
  else ((s.window texts).map (· + texts.length)).getD 0

theorem replayed_advanced {data : Value} {texts : List String}
    (h : replayTexts ((data.at_ "message").at_ "content") = some texts) :
    Advanced s (s.delivers texts) (s.replayed data) := by
  unfold replayed delivers
  rw [h]
  dsimp only
  by_cases hnone : texts = [] ∨ s.expected.length < texts.length
  · rw [if_pos hnone, if_pos hnone]
    exact (Spoke.nothing s).advanced
  · rw [if_neg hnone, if_neg hnone, ← window]
    cases hwindow : s.window texts with
    | none => exact (Spoke.nothing s).advanced
    | some skipped =>
      have hrange := List.mem_range.mp (List.mem_of_find?_eq_some hwindow)
      exact confirm_advanced skipped (skipped + texts.length) (by omega)

theorem replayed_none {data : Value}
    (h : replayTexts ((data.at_ "message").at_ "content") = none) : s.replayed data = ([], s) := by
  unfold replayed
  rw [h]

section
variable [Host]

theorem failure_plain (s : Stream) (data : Value) (text fallback : String) :
    Plain (s.failure data text fallback) :=
  ⟨EventType.noConfusion, EventType.noConfusion⟩

theorem block_spoke (s : Stream) (value : Value) : Spoke s (s.block value) := by
  have said : ∀ text : String, Spoke s
      (if text ≠ "" then [(s.event .text).saying text] else [], s) := by
    intro text
    by_cases htext : text ≠ ""
    · rw [if_pos htext]
      exact .one ⟨EventType.noConfusion, EventType.noConfusion⟩ rfl rfl
    · rw [if_neg htext]
      exact .nothing s
  unfold block
  extract_lets kind text id name args _ flat
  by_cases htext : kind = "text"
  · rw [if_pos htext]
    exact said text
  rw [if_neg htext]
  by_cases hthinking : THINKING_BLOCKS.contains kind
  · rw [if_pos hthinking]
    exact .one ⟨EventType.noConfusion, EventType.noConfusion⟩ rfl rfl
  rw [if_neg hthinking]
  by_cases htool : kind = "tool_use"
  · rw [if_pos htool]
    exact .one ⟨EventType.noConfusion, EventType.noConfusion⟩ rfl rfl
  · rw [if_neg htool]
    exact said flat

theorem blocks_spoke (s : Stream) (values : List Value) : Spoke s (s.blocks values) := by
  induction values generalizing s with
  | nil => exact .nothing s
  | cons first rest ih => exact (s.block_spoke first).append (ih (s.block first).2)

theorem assistant_spoke (s : Stream) (data : Value) : Spoke s (s.assistant data) := by
  unfold assistant
  extract_lets message named content texts
  have hnamed : Spoke s ([], named) := ⟨fun _ he => absurd he List.not_mem_nil, rfl, rfl⟩
  by_cases herror : apiErrorMessage data message
  · rw [if_pos herror]
    exact .one (failure_plain _ _ _ _) rfl rfl
  · rw [if_neg herror]
    exact hnamed.append (named.blocks_spoke content)

theorem result_spoke (s : Stream) (value : Value) : Spoke s (s.result value) := by
  unfold result
  by_cases hresult : value.str? "type" = some "tool_result"
  · rw [if_pos hresult]
    exact .one ⟨EventType.noConfusion, EventType.noConfusion⟩ rfl rfl
  · rw [if_neg hresult]
    exact .nothing s

theorem results_spoke (s : Stream) (values : List Value) : Spoke s (s.results values) := by
  induction values generalizing s with
  | nil => exact .nothing s
  | cons first rest ih => exact (s.result_spoke first).append (ih (s.result first).2)

omit [Host] in
theorem rateLimited_spoke (s : Stream) (data : Value) : Spoke s (s.rateLimited data, s) := by
  unfold rateLimited
  extract_lets info sort
  by_cases hrejected : info.str? "status" = some "rejected"
  · rw [if_pos hrejected]
    exact .one ⟨EventType.noConfusion, EventType.noConfusion⟩ rfl rfl
  · rw [if_neg hrejected]
    exact .nothing s

omit [Host] in
theorem system_spoke (s : Stream) (data : Value) : Spoke s ([], s.system data) := by
  unfold system
  split_ifs
  · exact ⟨fun _ he => absurd he List.not_mem_nil, rfl, rfl⟩
  · exact .nothing s

/-- The end of a turn confirms nothing, and the next confirmation opens a turn. -/
theorem finished_advanced (s : Stream) (data : Value) : Advanced s 0 (s.finished data) := by
  unfold finished
  extract_lets subtype _ _ failures ended
  have hfailures : ∀ e ∈ failures, Plain e := by
    intro e he
    unfold failures at he
    split_ifs at he
    · exact List.mem_singleton.mp he ▸ failure_plain _ _ _ _
    · exact absurd he List.not_mem_nil
  have hended : ended.eventType = .end_ := rfl
  refine ⟨Nat.zero_le _, ?_, rfl, ?_⟩
  · rw [confirmations_append, confirmations_plain hfailures]
    simp [confirmations, Event.is, hended]
  · rw [turnAfter_append, turnAfter_plain hfailures]
    simp [turnAfter, heard, Event.is, hended]

/-- A `user` line that echoes nothing confirms nothing. -/
theorem user_spoke {data : Value} (h : replayEcho data = false) : Spoke s (s.user data) := by
  rw [user, h]
  cases ((data.at_ "message").at_ "content").asArray with
  | none => exact .nothing s
  | some content => exact s.results_spoke content

/-- Whether a line is taken for an echo. -/
def echoes (data : Value) : Bool := data.str? "type" = some "user" && replayEcho data

/-- Only an echo confirms anything. -/
theorem feed_silent {line : Option Value} (h : ∀ data, line = some data → echoes data = false) :
    Advanced s 0 (s.feed line) := by
  cases line with
  | none => exact (Spoke.nothing s).advanced
  | some data =>
    have hnot := h data rfl
    unfold feed
    dsimp only
    split
    · exact (s.system_spoke data).advanced
    · exact (s.assistant_spoke data).advanced
    · next huser =>
      have hreplay : replayEcho data = false := by simpa [echoes, huser] using hnot
      exact (user_spoke hreplay).advanced
    · exact (s.rateLimited_spoke data).advanced
    · exact s.finished_advanced data
    · exact (Spoke.nothing s).advanced

theorem feed_echo {data : Value} (h : echoes data) : s.feed (some data) = s.replayed data := by
  obtain ⟨huser, hreplay⟩ := Bool.and_eq_true_iff.mp h
  rw [feed_user (of_decide_eq_true huser), user, if_pos hreplay]

end
end Stream
end SiliconOmni.Claude
