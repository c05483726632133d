import SiliconOmni.Codex.Promises

/-! Where no call is given up and no turn opens by itself, Codex takes in exactly the messages that are
reported delivered. -/
namespace SiliconOmni.Codex.Talk
open Lib (Machine)
variable {names : TurnNames} {thread : String} {s t : Talk}

/-- The answers that are written and not read. -/
def replies (s : Talk) : List (ℕ × Option String) :=
  s.lines.filterMap fun line =>
    match line with
    | .reply call turn => some (call, turn)
    | .news _ _ => none

/-- The messages that were reported delivered. -/
def delivered (s : Talk) : List ℕ := s.landings.map (·.send)

def takenIn (s : Talk) : List ℕ := s.took.map (·.1)

/-- Codex took in what was reported, and every turn was answered for. -/
structure Even (names : TurnNames) (s : Talk) : Prop where
  taken : s.takenIn = s.delivered
  answered : ∀ k < s.turns, names.name k ∈ s.answered

/-- The message under way was taken in as well, and the turn it opened may be unanswered for. -/
structure Ahead (names : TurnNames) (s : Talk) (turn : String) : Prop where
  taken : ∃ send, s.pc.send = some send ∧ s.takenIn = s.delivered ++ [send]
  answered : ∀ k < s.turns, names.name k ∈ s.answered ∨
    names.name k = turn ∧ ∃ call send open_, s.pc = .starting call send open_

/-- What the answer to the call under way tells. -/
def Result (names : TurnNames) (s : Talk) : Option String → Prop
  | none => Even names s
  | some turn => Ahead names s turn

/-- Where the one call that may be under way is. -/
inductive Stage (names : TurnNames) (s : Talk) : Prop where
  | idle (pc : s.pc = .idle) (requests : s.requests = []) (replies : s.replies = [])
      (answer : s.answer = none) (even : Even names s)
  | asked {request : Request} (pc : s.pc.request = some request)
      (requests : s.requests = [request]) (replies : s.replies = []) (answer : s.answer = none)
      (even : Even names s)
  | replied {call : ℕ} {turn : Option String} (pc : s.pc.call = some call)
      (requests : s.requests = []) (replies : s.replies = [(call, turn)])
      (answer : s.answer = none) (result : Result names s turn)
  | received {turn : Option String} (pc : s.pc ≠ .idle) (requests : s.requests = [])
      (replies : s.replies = []) (answer : s.answer = some turn) (result : Result names s turn)

/-- The books of a runner whose calls are all answered. -/
structure Prompt (names : TurnNames) (s : Talk) : Prop where
  stage : Stage names s
  promised : ∀ turn ∈ s.answered, turn ∈ s.promised
  known : s.pc.known ≠ "" → s.pc.known ∈ s.answered
  current : ∀ send, s.pc.send = some send → send + 1 = s.sends
  sends : ∀ send, send ∈ s.delivered ∨ send ∈ s.failures ↔
    send < s.sends ∧ s.pc.send ≠ some send
  once : s.delivered.Nodup
  apart : ∀ send ∈ s.failures, send ∉ s.delivered

theorem Even.of_same (h : Even names s) (took : t.took = s.took) (landings : t.landings = s.landings)
    (turns : t.turns = s.turns) (answered : t.answered = s.answered) : Even names t where
  taken := by rw [takenIn, delivered, took, landings]; exact h.taken
  answered := by rw [turns, answered]; exact h.answered

theorem Ahead.of_same {turn : String} (h : Ahead names s turn) (pc : t.pc = s.pc)
    (took : t.took = s.took) (landings : t.landings = s.landings) (turns : t.turns = s.turns)
    (answered : t.answered = s.answered) : Ahead names t turn where
  taken := by rw [pc, takenIn, delivered, took, landings]; exact h.taken
  answered := by rw [pc, turns, answered]; exact h.answered

theorem Result.of_same {turn : Option String} (h : Result names s turn) (pc : t.pc = s.pc)
    (took : t.took = s.took) (landings : t.landings = s.landings) (turns : t.turns = s.turns)
    (answered : t.answered = s.answered) : Result names t turn := by
  cases turn with
  | none => exact Even.of_same h took landings turns answered
  | some turn => exact Ahead.of_same h pc took landings turns answered

/-- The books of the runner stand as long as it stays where it is. -/
theorem Prompt.onward (h : Prompt names s) (stage : Stage names t) (pc : t.pc = s.pc)
    (sends : t.sends = s.sends) (landings : t.landings = s.landings)
    (failures : t.failures = s.failures) (answered : t.answered = s.answered) :
    Prompt names t where
  stage := stage
  promised := by
    have same : t.promised = s.promised := by rw [Talk.promised, Talk.promised, landings]
    rw [answered, same]
    exact h.promised
  known := by rw [pc, answered]; exact h.known
  current := by rw [pc, sends]; exact h.current
  sends := by rw [delivered, landings, failures, sends, pc]; exact h.sends
  once := by rw [delivered, landings]; exact h.once
  apart := by rw [failures, delivered, landings]; exact h.apart

/-- A line that is no answer leaves the call where it is. -/
theorem Stage.chat (h : Stage names s) (pc : t.pc = s.pc) (requests : t.requests = s.requests)
    (replies : t.replies = s.replies) (answer : t.answer = s.answer) (took : t.took = s.took)
    (landings : t.landings = s.landings) (turns : t.turns = s.turns)
    (answered : t.answered = s.answered) : Stage names t := by
  cases h with
  | idle hpc hrequests hreplies hanswer even =>
    exact .idle (pc ▸ hpc) (requests ▸ hrequests) (replies ▸ hreplies) (answer ▸ hanswer)
      (even.of_same took landings turns answered)
  | asked hpc hrequests hreplies hanswer even =>
    exact .asked (pc ▸ hpc) (requests ▸ hrequests) (replies ▸ hreplies) (answer ▸ hanswer)
      (even.of_same took landings turns answered)
  | replied hpc hrequests hreplies hanswer result =>
    exact .replied (pc ▸ hpc) (requests ▸ hrequests) (replies ▸ hreplies) (answer ▸ hanswer)
      (result.of_same pc took landings turns answered)
  | received hpc hrequests hreplies hanswer result =>
    exact .received (pc ▸ hpc) (requests ▸ hrequests) (replies ▸ hreplies) (answer ▸ hanswer)
      (result.of_same pc took landings turns answered)

/-- Where an answer is at hand, it is the only one. -/
theorem Stage.at_hand {turn : Option String} (h : Stage names s) (hand : s.answer = some turn) :
    s.requests = [] ∧ s.replies = [] ∧ Result names s turn := by
  cases h with
  | idle _ _ _ answer => rw [answer] at hand; cases hand
  | asked _ _ _ answer => rw [answer] at hand; cases hand
  | replied _ _ _ answer => rw [answer] at hand; cases hand
  | received _ requests replies answer result =>
    obtain rfl := Option.some.inj (answer.symm.trans hand)
    exact ⟨requests, replies, result⟩

/-- Where a request is unanswered, it is the only one. -/
theorem Stage.unanswered {request : Request} (h : Stage names s) (asked : request ∈ s.requests) :
    s.requests.erase request = [] ∧ s.pc.request = some request ∧ s.replies = [] ∧ s.answer = none ∧
      Even names s := by
  cases h with
  | idle _ requests => rw [requests] at asked; cases asked
  | replied _ requests => rw [requests] at asked; cases asked
  | received _ requests => rw [requests] at asked; cases asked
  | asked pc requests replies answer even =>
    rw [requests] at asked ⊢
    obtain rfl := List.mem_singleton.mp asked
    exact ⟨by simp, pc, replies, answer, even⟩

theorem Stage.resting (h : Stage names s) (pc : s.pc = .idle) :
    s.requests = [] ∧ s.replies = [] ∧ Even names s := by
  cases h with
  | idle _ requests replies _ even => exact ⟨requests, replies, even⟩
  | asked hpc => rw [pc] at hpc; cases hpc
  | replied hpc => rw [pc] at hpc; cases hpc
  | received hpc => exact absurd pc hpc

theorem call_of_request {pc : Pc} {request : Request} (h : pc.request = some request) :
    pc.call = some request.call := by
  cases pc with
  | idle => cases h
  | steering | starting => cases h; rfl

theorem replies_reply {call : ℕ} {turn : Option String} (lines : t.lines = s.lines ++ [.reply call turn]) :
    t.replies = s.replies ++ [(call, turn)] := by
  simp [replies, lines]

theorem replies_news {method : String} {params : Value}
    (lines : t.lines = s.lines ++ [.news method params]) : t.replies = s.replies := by
  simp [replies, lines]

/-- A call is made: for a new message, or for the one that could not be steered. -/
theorem Prompt.ask {request : Request} (h : Prompt names s) (requests : s.requests = [])
    (replies : s.replies = []) (even : Even names s) (asks : t.requests = s.requests ++ [request])
    (mine : t.pc.request = some request) (answer : t.answer = none) (lines : t.lines = s.lines)
    (took : t.took = s.took) (landings : t.landings = s.landings)
    (failures : t.failures = s.failures) (answered : t.answered = s.answered)
    (turns : t.turns = s.turns)
    (known : t.pc.known ≠ "" → t.pc.known ∈ s.answered)
    (current : ∀ send, t.pc.send = some send → send + 1 = t.sends)
    (sends : ∀ send, send < t.sends ∧ t.pc.send ≠ some send ↔
      send < s.sends ∧ s.pc.send ≠ some send) : Prompt names t where
  stage := .asked mine (by rw [asks, requests]; rfl)
    (by rw [Talk.replies, lines]; exact replies) answer
    (even.of_same took landings turns answered)
  promised := by
    have same : t.promised = s.promised := by rw [Talk.promised, Talk.promised, landings]
    rw [answered, same]
    exact h.promised
  known := by rw [answered]; exact known
  current := current
  sends send := by
    rw [delivered, landings, failures, sends]
    exact h.sends send
  once := by rw [delivered, landings]; exact h.once
  apart := by rw [failures, delivered, landings]; exact h.apart

/-- The message under way is reported as delivered. -/
theorem Prompt.reported {send : ℕ} {landing : Landing} (h : Prompt names s)
    (requests : s.requests = []) (replies : s.replies = []) (pc : s.pc.send = some send)
    (taken : s.takenIn = s.delivered ++ [send]) (of : landing.send = send)
    (idle : t.pc = .idle) (asks : t.requests = s.requests) (answer : t.answer = none)
    (lines : t.lines = s.lines) (took : t.took = s.took)
    (landings : t.landings = s.landings ++ [landing]) (failures : t.failures = s.failures)
    (sends : t.sends = s.sends)
    (answered : ∀ k < t.turns, names.name k ∈ t.answered)
    (promised : ∀ turn ∈ t.answered, turn ∈ t.promised) : Prompt names t := by
  have hdelivered : t.delivered = s.delivered ++ [send] := by
    rw [delivered, landings, List.map_append, List.map_singleton, of]
    rfl
  have fresh : send ∉ s.delivered ∧ send ∉ s.failures := by
    have := (h.sends send).not.mpr (by simp [pc])
    exact not_or.mp this
  refine ⟨.idle idle (asks.trans requests) (by rw [Talk.replies, lines]; exact replies) answer
    ⟨?_, answered⟩, promised, ?_, ?_, fun other => ?_, ?_, fun other hmem => ?_⟩
  · rw [takenIn, took, hdelivered]
    exact taken
  · rw [idle]
    exact fun none => absurd rfl none
  · rw [idle]
    rintro _ ⟨⟩
  · have known := h.sends other
    have last := h.current send pc
    rw [pc, ne_eq, Option.some.injEq] at known
    rw [hdelivered, failures, sends, idle, List.mem_append, List.mem_singleton, or_right_comm, known]
    simp only [Pc.send, ne_eq, reduceCtorEq, not_false_eq_true, and_true]
    omega
  · rw [hdelivered, List.nodup_append]
    refine ⟨h.once, List.nodup_singleton send, fun other hmem same hsame heq => ?_⟩
    obtain rfl := List.mem_singleton.mp hsame
    exact fresh.1 (heq ▸ hmem)
  · rw [failures] at hmem
    rw [hdelivered, List.mem_append, List.mem_singleton, not_or]
    refine ⟨h.apart other hmem, ?_⟩
    rintro rfl
    exact fresh.2 hmem

/-- The message under way was refused. -/
theorem Prompt.fail {send : ℕ} (h : Prompt names s) (requests : s.requests = [])
    (replies : s.replies = []) (even : Even names s) (pc : s.pc.send = some send) :
    Prompt names (s.fail send) := by
  have fresh : send ∉ s.delivered ∧ send ∉ s.failures := by
    have := (h.sends send).not.mpr (by simp [pc])
    exact not_or.mp this
  refine ⟨.idle rfl requests replies rfl (even.of_same rfl rfl rfl rfl), h.promised,
    fun none => absurd rfl none, by rintro _ ⟨⟩, fun other => ?_, h.once, fun other hmem => ?_⟩
  · have known := h.sends other
    have last := h.current send pc
    rw [pc, ne_eq, Option.some.injEq] at known
    show other ∈ s.delivered ∨ other ∈ s.failures ++ [send] ↔ other < s.sends ∧ none ≠ some other
    rw [List.mem_append, List.mem_singleton, ← or_assoc, known]
    simp only [ne_eq, reduceCtorEq, not_false_eq_true, and_true]
    omega
  · rcases List.mem_append.mp hmem with hmem | hmem
    · exact h.apart other hmem
    · rw [List.mem_singleton.mp hmem]
      exact fresh.1

/-- A turn that nobody was answered for before is promised to the message that opened it. -/
theorem landed_new {turn : String} (h : Prompt names s) (told : Told names s)
    (named : turn ≠ "") (new : turn ∉ s.answered) :
    landed turn s.pc.known s.started = .nextTurn := by
  rw [landed, if_neg]
  rintro ⟨-, open_ | started⟩
  · exact new (open_ ▸ h.known (open_ ▸ named))
  · have last := told.started
    cases hlast : s.answered.getLast? with
    | none =>
      rw [hlast] at last
      exact named (started.trans last)
    | some final =>
      rw [hlast] at last
      exact new (started.trans last ▸ List.mem_of_getLast? hlast)

theorem Prompt.land {call send : ℕ} {open_ turn : String} (h : Prompt names s)
    (told : Told names s) (pc : s.pc = .starting call send open_)
    (answer : s.answer = some (some turn)) : Prompt names (s.land send open_ turn) := by
  obtain ⟨requests, replies, ahead⟩ := h.stage.at_hand answer
  obtain ⟨mine, hmine, taken⟩ := ahead.taken
  obtain rfl : send = mine := by simpa [pc, Pc.send] using hmine
  have lands := told.mailbox turn answer
  rw [Lands, pc] at lands
  obtain ⟨k, -, hname, -⟩ := lands
  have named : turn ≠ "" := hname ▸ names.ne_empty k
  have grows : (s.land send open_ turn).promised = s.promised ++
      if landed turn open_ s.started = .nextTurn then [turn] else [] := by
    simp only [Talk.promised, Talk.land, List.filter_append, List.map_append]
    split_ifs with next <;> simp [next]
  refine h.reported requests replies hmine taken rfl rfl rfl rfl rfl rfl rfl rfl rfl
    (fun j hj => ?_) fun other hmem => ?_
  · show names.name j ∈ s.answered ++ [turn]
    rcases ahead.answered j hj with answered | ⟨heq, -⟩
    · exact List.mem_append_left _ answered
    · exact List.mem_append_right _ (List.mem_singleton.mpr heq)
  · rw [grows]
    rcases List.mem_append.mp hmem with hmem | hmem
    · exact List.mem_append_left _ (h.promised other hmem)
    · obtain rfl := List.mem_singleton.mp hmem
      by_cases before : other ∈ s.answered
      · exact List.mem_append_left _ (h.promised other before)
      · have new := landed_new h told named before
        rw [show s.pc.known = open_ by rw [pc]; rfl] at new
        rw [if_pos new]
        exact List.mem_append_right _ List.mem_cons_self

theorem Prompt.steered {call send : ℕ} {open_ turn : String} (h : Prompt names s)
    (pc : s.pc = .steering call send open_) (answer : s.answer = some (some turn)) :
    Prompt names (s.steered send open_) := by
  obtain ⟨requests, replies, ahead⟩ := h.stage.at_hand answer
  obtain ⟨mine, hmine, taken⟩ := ahead.taken
  obtain rfl : send = mine := by simpa [pc, Pc.send] using hmine
  have same : (s.steered send open_).promised = s.promised := by
    simp [Talk.promised, Talk.steered, List.filter_append]
  refine h.reported requests replies hmine taken rfl rfl rfl rfl rfl rfl rfl rfl rfl
    (fun j hj => ?_) (same ▸ h.promised)
  rcases ahead.answered j hj with answered | ⟨-, _, _, _, starting⟩
  · exact answered
  · rw [pc] at starting
    cases starting

/-- Codex takes the message under way into a turn. -/
theorem Prompt.serve {request : Request} {send k : ℕ} {turn : String}
    (h : Prompt names s) (asked : request ∈ s.requests)
    (mine : ∀ pc : Pc, pc.request = some request → pc.send = some send)
    (covers : ∀ j < t.turns, j < s.turns ∨
      names.name j = turn ∧ ∃ call send open_, s.pc = .starting call send open_)
    (left : t.requests = s.requests.erase request) (pc : t.pc = s.pc) (answer : t.answer = s.answer)
    (took : t.took = s.took ++ [(send, k)])
    (lines : t.lines = s.lines ++ [.reply request.call (some turn)])
    (sends : t.sends = s.sends) (landings : t.landings = s.landings)
    (failures : t.failures = s.failures) (answered : t.answered = s.answered) :
    Prompt names t := by
  obtain ⟨alone, hrequest, replies, none, even⟩ := h.stage.unanswered asked
  have taken : t.takenIn = t.delivered ++ [send] := by
    rw [takenIn, delivered, took, landings, List.map_append]
    exact congrArg (· ++ [send]) even.taken
  have result : Result names t (some turn) := by
    refine ⟨⟨send, by rw [pc]; exact mine s.pc hrequest, taken⟩, fun j hj => ?_⟩
    rw [answered, pc]
    rcases covers j hj with old | new
    · exact .inl (even.answered j old)
    · exact .inr new
  have call : t.pc.call = some request.call := by
    rw [pc]
    exact call_of_request hrequest
  have coming : t.replies = [(request.call, some turn)] := by
    rw [replies_reply lines, replies]
    rfl
  exact h.onward (.replied call (left.trans alone) coming (answer.trans none) result) pc sends landings failures
    answered

theorem send_of_steer {pc : Pc} {call send : ℕ} {expected : String}
    (h : pc.request = some (.steer call send expected)) : pc.send = some send := by
  cases pc with
  | idle | starting => cases h
  | steering => cases h; rfl

theorem send_of_start {pc : Pc} {call send : ℕ} (h : pc.request = some (.start call send)) :
    pc.send = some send ∧ ∃ call send open_, pc = .starting call send open_ := by
  cases pc with
  | idle | steering => cases h
  | starting call send open_ => cases h; exact ⟨rfl, _, _, _, rfl⟩

section
variable [Host]

theorem Prompt.step {stir : Stir} (h : Prompt names s) (follows : Follows names thread s)
    (told : Told names s) (answered : stir ≠ .timeout) (asked_for : stir ≠ .begin_)
    (stirs : Stirs names thread s stir t) : Prompt names t := by
  cases stirs with
  | steer idle running =>
    obtain ⟨requests, replies, even⟩ := h.stage.resting idle
    refine h.ask requests replies even rfl rfl rfl rfl rfl rfl rfl rfl rfl (fun _ => ?_) ?_ ?_
    · rcases follows.turnOf with none | ⟨k, hk, hname⟩
      · exact absurd none running
      · exact hname ▸ even.answered k hk
    · rintro _ ⟨⟩
      rfl
    · intro send
      show send < s.sends + 1 ∧ some s.sends ≠ some send ↔ send < s.sends ∧ s.pc.send ≠ some send
      simp only [idle, Pc.send, ne_eq, Option.some.injEq, reduceCtorEq, not_false_eq_true, and_true]
      omega
  | start idle =>
    obtain ⟨requests, replies, even⟩ := h.stage.resting idle
    refine h.ask requests replies even rfl rfl rfl rfl rfl rfl rfl rfl rfl
      (fun none => absurd rfl none) ?_ ?_
    · rintro _ ⟨⟩
      rfl
    · intro send
      show send < s.sends + 1 ∧ some s.sends ≠ some send ↔ send < s.sends ∧ s.pc.send ≠ some send
      simp only [idle, Pc.send, ne_eq, Option.some.injEq, reduceCtorEq, not_false_eq_true, and_true]
      omega
  | restart pc why =>
    rcases why with ⟨-, answer⟩ | ⟨rfl, -⟩
    · obtain ⟨requests, replies, even⟩ := h.stage.at_hand answer
      have known := h.known
      have current := h.current
      rw [pc] at known current
      refine h.ask requests replies even rfl rfl rfl rfl rfl rfl rfl rfl rfl known current ?_
      intro send
      rw [pc]
      rfl
    · exact absurd rfl answered
  | failed pc why =>
    rcases why with ⟨-, answer⟩ | ⟨rfl, -⟩
    · obtain ⟨requests, replies, even⟩ := h.stage.at_hand answer
      exact h.fail requests replies even (by rw [pc]; rfl)
    · exact absurd rfl answered
  | steered pc answer => exact h.steered pc answer
  | landed pc answer => exact h.land told pc answer
  | joined asked open_ =>
    exact h.serve asked (fun _ => send_of_steer) (fun _ => .inl) rfl rfl rfl rfl rfl rfl rfl rfl rfl
  | folded asked open_ =>
    exact h.serve asked (fun _ hpc => (send_of_start hpc).1) (fun _ => .inl) rfl rfl rfl rfl rfl
      rfl rfl rfl rfl
  | opened asked open_ =>
    have starting := (send_of_start (h.stage.unanswered asked).2.1).2
    refine h.serve asked (fun _ hpc => (send_of_start hpc).1) (fun j hj => ?_) rfl rfl rfl rfl
      rfl rfl rfl rfl rfl
    rcases Nat.lt_succ_iff_lt_or_eq.mp hj with old | rfl
    · exact .inl old
    · exact .inr ⟨rfl, starting⟩
  | @refused request asked =>
    obtain ⟨alone, hrequest, silent, none, even⟩ := h.stage.unanswered asked
    have coming : ({ s with requests := s.requests.erase request }.say
        (.reply request.call Option.none)).replies = [(request.call, Option.none)] := by
      rw [replies_reply rfl]
      exact congrArg (· ++ [(request.call, Option.none)]) silent
    exact h.onward (.replied (call_of_request hrequest) alone coming none
      (Even.of_same even rfl rfl rfl rfl)) rfl rfl rfl rfl rfl
  | began => exact absurd rfl asked_for
  | finished | spoke =>
    exact h.onward (h.stage.chat rfl rfl (replies_news rfl) rfl rfl rfl rfl rfl) rfl rfl rfl rfl rfl
  | heard lines =>
    refine h.onward (h.stage.chat rfl rfl ?_ rfl rfl rfl rfl rfl) rfl rfl rfl rfl rfl
    simp [replies, lines]
  | @replied call turn rest lines =>
    have written : s.replies = (call, turn) :: replies { s with lines := rest } := by
      simp [replies, lines]
    cases h.stage with
    | idle _ _ replies => rw [replies] at written; cases written
    | asked _ _ replies => rw [replies] at written; cases written
    | received _ _ replies => rw [replies] at written; cases written
    | replied pc requests replies none result =>
      rw [replies] at written
      obtain ⟨hfirst, hrest⟩ := List.cons.inj written
      cases hfirst
      refine h.onward (.received ?_ requests hrest.symm ?_ (result.of_same rfl rfl rfl rfl rfl)) rfl
        rfl rfl rfl rfl
      · intro idle
        rw [show s.pc = .idle from idle] at pc
        cases pc
      · simp [pc, none]

/-- The runs in which Codex keeps its contract, no call is given up, and no turn opens but for a
message. -/
abbrev Answered (names : TurnNames) (thread : String) : Talk → Prop :=
  (machine thread).Reach fun s stir => Contract names thread s stir ∧ stir ≠ .timeout ∧ stir ≠ .begin_

theorem prompt (run : Answered names thread s) : Prompt names s ∧ Follows names thread s ∧
    Told names s := by
  apply run.invariant
  · rintro _ ⟨model, rfl⟩
    refine ⟨⟨.idle rfl rfl rfl rfl ⟨rfl, fun k hk => absurd hk (Nat.not_lt_zero k)⟩, ?_, ?_, ?_, ?_,
      List.nodup_nil, ?_⟩, .start model, .start⟩
    · exact fun _ hmem => absurd hmem List.not_mem_nil
    · exact fun none => absurd rfl none
    · rintro _ ⟨⟩
    · intro send
      simp [delivered]
    · exact fun _ hmem => absurd hmem List.not_mem_nil
  · rintro s stir t _ ih ⟨kept, answered, asked_for⟩ hstep
    have stirs := step_cases ih.2.1 kept hstep
    exact ⟨ih.1.step ih.2.1 ih.2.2 answered asked_for stirs, ih.2.1.step stirs,
      ih.2.2.step ih.2.1 stirs⟩

/-- Where Codex keeps its contract, no call is given up, and no turn opens but for a message, then
between two sends Codex has taken in exactly the messages that
were reported delivered, each once and in their order; every other message was reported as failed;
and the turns promised are the turns opened, in their order, each with the END that was heard or is
still to come. -/
theorem sends_once (run : Answered names thread s) (idle : s.pc = .idle) :
    s.takenIn = s.delivered ∧ s.delivered.Nodup ∧
    (∀ send < s.sends, send ∈ s.failures ↔ send ∉ s.delivered) ∧
    s.promised = (List.range s.turns).map names.name ∧
    Stream.ends s.heard + s.underway thread = s.promised.length := by
  obtain ⟨prompt, follows, told⟩ := prompt run
  obtain ⟨-, -, even⟩ := prompt.stage.resting idle
  obtain ⟨js, hjs, sorted, known⟩ := told.promises
  have range : js = List.range s.turns := by
    refine List.Perm.eq_of_pairwise (fun a b _ _ hab hba => absurd hba hab.asymm) sorted
      List.pairwise_lt_range ?_
    rw [List.perm_ext_iff_of_nodup (sorted.imp fun hlt => hlt.ne) List.nodup_range]
    intro j
    rw [List.mem_range]
    refine ⟨fun hj => told.opened (known j hj), fun hj => ?_⟩
    have promised := prompt.promised _ (even.answered j hj)
    rw [hjs, List.mem_map] at promised
    obtain ⟨k, hk, hname⟩ := promised
    rwa [← names.injective hname]
  have all : s.promised = (List.range s.turns).map names.name := by rw [hjs, range]
  refine ⟨even.taken, prompt.once, fun send hsend => ⟨prompt.apart send, fun away => ?_⟩, all, ?_⟩
  · have sent := (prompt.sends send).mpr ⟨hsend, by rw [idle]; rintro ⟨⟩⟩
    exact sent.resolve_left away
  · rw [all, List.length_map, List.length_range]
    exact follows.ends

end

section samples
attribute [local instance] Host.ascii

/-- The turn ends while a message is being steered into it: Codex refuses, and the message opens
the next turn. -/
def missedTurn : List Stir :=
  let t (turn : ℕ) : Option String := some (tally.name turn)
  [.send, .answer (.start 0 0) (t 0) (some 0), .read, .receive,
    .send, .answer (.start 1 1) (t 0) (some 0), .read, .receive,
    .speak "turn/started" (turnNews 0), .read,
    .send, .finish (turnNews 0), .answer (.steer 2 2 (tally.name 0)) none none, .read, .read, .receive,
    .answer (.start 3 2) (t 1) (some 1), .read, .receive]

theorem sends_once_missed : ∃ s : Talk, s.pc = .idle ∧ s.turns = 2 ∧ s.takenIn = s.delivered ∧
    s.promised = (List.range s.turns).map tally.name := by
  have run : ∃ s, (machine "a").exec fresh missedTurn = some s ∧ s.pc = .idle ∧ s.turns = 2 :=
    ⟨_, Option.eq_some_of_isSome (by decide +kernel), by decide +kernel, by decide +kernel⟩
  obtain ⟨s, hs, idle, two⟩ := run
  have start : Answered tally "a" fresh := .init ⟨"m", rfl⟩
  have kept : (machine "a").Along
      (fun s stir => Contract tally "a" s stir ∧ stir ≠ .timeout ∧ stir ≠ .begin_) fresh missedTurn := by
    decide +kernel
  have account := sends_once (start.exec kept hs) idle
  exact ⟨s, idle, two, account.1, account.2.2.2.1⟩

end samples
end SiliconOmni.Codex.Talk
