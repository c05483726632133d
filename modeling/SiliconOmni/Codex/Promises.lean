import SiliconOmni.Codex.Turns

/-! What `send` says of a message, against what Codex did with it. -/
namespace SiliconOmni.Codex.Talk
variable {names : TurnNames} {thread : String} {s t : Talk}

/-- What a turn named in answer to the call under way means. -/
def Lands (names : TurnNames) (s : Talk) (turn : String) : Prop :=
  match s.pc with
  | .idle => True
  | .steering _ send open_ => ∃ k < s.turns, open_ = names.name k ∧ (send, k) ∈ s.took
  | .starting _ send _ => ∃ k < s.turns, turn = names.name k ∧ (send, k) ∈ s.took ∧
      ∀ j, names.name j ∈ s.answered → j ≤ k

/-- An answer speaks of the turn that its message went into, and turns are answered for in the
order that they were opened. -/
structure Told (names : TurnNames) (s : Talk) : Prop where
  call : ∀ call, s.pc.call = some call → call < s.calls
  requests : ∀ request ∈ s.requests, request.call < s.calls
  replies : ∀ call turn, .reply call turn ∈ s.lines → call < s.calls
  asked : ∀ request ∈ s.requests, s.pc.call = some request.call → s.pc.request = some request
  coming : ∀ call turn, .reply call (some turn) ∈ s.lines → s.pc.call = some call →
    Lands names s turn
  mailbox : ∀ turn, s.answer = some (some turn) → Lands names s turn
  named : ∀ turn ∈ s.answered, ∃ k < s.turns, turn = names.name k
  started : s.started = s.answered.getLast?.getD ""
  latest : ∀ j k, names.name j ∈ s.answered → s.started = names.name k → j ≤ k
  landings : ∀ landing ∈ s.landings, ∃ k < s.turns,
    landing.turn = names.name k ∧ (landing.send, k) ∈ s.took
  promises : ∃ js : List ℕ, s.promised = js.map names.name ∧ js.Pairwise (· < ·) ∧
    ∀ j ∈ js, names.name j ∈ s.answered

theorem Told.start {shared : Shared} : Told names { shared } where
  call _ := by rintro ⟨⟩
  requests _ hmem := absurd hmem List.not_mem_nil
  replies _ _ hmem := absurd hmem List.not_mem_nil
  asked _ hmem := absurd hmem List.not_mem_nil
  coming _ _ hmem := absurd hmem List.not_mem_nil
  mailbox _ := by rintro ⟨⟩
  named _ hmem := absurd hmem List.not_mem_nil
  started := rfl
  latest _ _ hmem := absurd hmem List.not_mem_nil
  landings _ hmem := absurd hmem List.not_mem_nil
  promises := ⟨[], rfl, .nil, fun _ hmem => absurd hmem List.not_mem_nil⟩

/-- More turns, and more messages taken in, leave what an answer means. -/
theorem Lands.mono {turn : String} (h : Lands names s turn) (pc : t.pc = s.pc)
    (answered : t.answered = s.answered) (turns : s.turns ≤ t.turns)
    (took : ∀ entry ∈ s.took, entry ∈ t.took) : Lands names t turn := by
  unfold Lands at h ⊢
  rw [pc]
  cases hpc : s.pc with
  | idle => exact True.intro
  | steering call send open_ =>
    rw [hpc] at h
    obtain ⟨k, hk, hname, htook⟩ := h
    exact ⟨k, hk.trans_le turns, hname, took _ htook⟩
  | starting call send open_ =>
    rw [hpc] at h
    obtain ⟨k, hk, hname, htook, hlast⟩ := h
    exact ⟨k, hk.trans_le turns, hname, took _ htook, by rwa [answered]⟩

/-- Codex and the reader go on, and the runner stays where it is. -/
theorem Told.onward (h : Told names s) (pc : t.pc = s.pc) (calls : t.calls = s.calls)
    (started : t.started = s.started) (answered : t.answered = s.answered)
    (landings : t.landings = s.landings) (turns : s.turns ≤ t.turns)
    (took : ∀ entry ∈ s.took, entry ∈ t.took)
    (requests : ∀ request ∈ t.requests, request ∈ s.requests)
    (replies : ∀ call turn, .reply call turn ∈ t.lines → call < s.calls)
    (coming : ∀ call turn, .reply call (some turn) ∈ t.lines → s.pc.call = some call →
      Lands names t turn)
    (mailbox : ∀ turn, t.answer = some (some turn) → Lands names t turn) : Told names t where
  call := by rw [pc, calls]; exact h.call
  requests request hmem := by rw [calls]; exact h.requests request (requests request hmem)
  replies := by rw [calls]; exact replies
  asked request hmem := by rw [pc]; exact h.asked request (requests request hmem)
  coming := by rw [pc]; exact coming
  mailbox := mailbox
  named turn hmem := by
    obtain ⟨k, hk, hname⟩ := h.named turn (answered ▸ hmem)
    exact ⟨k, hk.trans_le turns, hname⟩
  started := by rw [started, answered]; exact h.started
  latest := by rw [started, answered]; exact h.latest
  landings landing hmem := by
    obtain ⟨k, hk, hname, htook⟩ := h.landings landing (landings ▸ hmem)
    exact ⟨k, hk.trans_le turns, hname, took _ htook⟩
  promises := by
    have same : t.promised = s.promised := by rw [promised, promised, landings]
    rw [same, answered]
    exact h.promises

/-- A new call, whose answer is still to come. -/
theorem Told.ask {request : Request} (h : Told names s)
    (requests : t.requests = s.requests ++ [request]) (call : t.pc.call = some s.calls)
    (mine : t.pc.request = some request) (id : request.call = s.calls)
    (calls : t.calls = s.calls + 1) (answer : t.answer = none) (lines : t.lines = s.lines)
    (started : t.started = s.started) (answered : t.answered = s.answered)
    (landings : t.landings = s.landings) (turns : t.turns = s.turns) (took : t.took = s.took) :
    Told names t where
  call other hother := by
    obtain rfl := Option.some.inj (call.symm.trans hother)
    omega
  requests other hmem := by
    rw [requests] at hmem
    rcases List.mem_append.mp hmem with hmem | hmem
    · have := h.requests other hmem
      omega
    · obtain rfl := List.mem_singleton.mp hmem
      omega
  replies other turn hmem := by
    have := h.replies other turn (lines ▸ hmem)
    omega
  asked other hmem hcall := by
    rw [requests] at hmem
    have heq : other.call = s.calls := Option.some.inj (hcall.symm.trans call)
    rcases List.mem_append.mp hmem with hmem | hmem
    · have := h.requests other hmem
      omega
    · rw [mine, List.mem_singleton.mp hmem]
  coming other turn hmem hcall := by
    have heq : other = s.calls := Option.some.inj (hcall.symm.trans call)
    have := h.replies other _ (lines ▸ hmem)
    omega
  mailbox turn := by rw [answer]; rintro ⟨⟩
  named := by rw [answered, turns]; exact h.named
  started := by rw [started, answered]; exact h.started
  latest := by rw [started, answered]; exact h.latest
  landings := by rw [landings, turns, took]; exact h.landings
  promises := by
    have same : t.promised = s.promised := by rw [promised, promised, landings]
    rw [same, answered]
    exact h.promises

theorem Lands.idle {turn : String} (pc : s.pc = .idle) : Lands names s turn := by
  rw [Lands, pc]
  exact True.intro

/-- A message that was not delivered. -/
theorem Told.fail {send : ℕ} (h : Told names s) : Told names (s.fail send) where
  call _ := by rintro ⟨⟩
  requests := h.requests
  replies := h.replies
  asked _ _ := by rintro ⟨⟩
  coming _ _ _ _ := Lands.idle rfl
  mailbox _ := by rintro ⟨⟩
  named := h.named
  started := h.started
  latest := h.latest
  landings := h.landings
  promises := h.promises

theorem Told.steered {call send : ℕ} {open_ turn : String} (h : Told names s)
    (pc : s.pc = .steering call send open_) (answer : s.answer = some (some turn)) :
    Told names (s.steered send open_) where
  call _ := by rintro ⟨⟩
  requests := h.requests
  replies := h.replies
  asked _ _ := by rintro ⟨⟩
  coming _ _ _ _ := Lands.idle rfl
  mailbox _ := by rintro ⟨⟩
  named := h.named
  started := h.started
  latest := h.latest
  landings landing hmem := by
    rcases List.mem_append.mp hmem with hmem | hmem
    · exact h.landings landing hmem
    · obtain rfl := List.mem_singleton.mp hmem
      have lands := h.mailbox turn answer
      rwa [Lands, pc] at lands
  promises := by
    have same : (s.steered send open_).promised = s.promised := by
      simp [promised, Talk.steered, List.filter_append]
    rw [same]
    exact h.promises

/-- A turn that was answered for before is the last one that was. -/
theorem Told.again {k : ℕ} (h : Told names s) (before : names.name k ∈ s.answered)
    (latest : ∀ j, names.name j ∈ s.answered → j ≤ k) : s.started = names.name k := by
  have hlast : s.answered.getLast? = some (s.answered.getLast (List.ne_nil_of_mem before)) :=
    List.getLast?_eq_some_getLast _
  have hmem := List.getLast_mem (List.ne_nil_of_mem before)
  obtain ⟨l, -, hname⟩ := h.named _ hmem
  have hstarted : s.started = names.name l := by
    rw [h.started, hlast]
    exact hname
  have hle : k ≤ l := h.latest k l before hstarted
  have hge : l ≤ k := latest l (hname ▸ hmem)
  rw [hstarted, le_antisymm hge hle]

theorem Told.land {call send : ℕ} {open_ turn : String} (h : Told names s)
    (pc : s.pc = .starting call send open_) (answer : s.answer = some (some turn)) :
    Told names (s.land send open_ turn) := by
  have lands := h.mailbox turn answer
  rw [Lands, pc] at lands
  obtain ⟨k, hk, rfl, htook, hlast⟩ := lands
  have answered : (s.land send open_ (names.name k)).answered = s.answered ++ [names.name k] := rfl
  refine ⟨by rintro _ ⟨⟩, h.requests, h.replies, by rintro _ _ ⟨⟩, fun _ _ _ _ => Lands.idle rfl,
    by rintro _ ⟨⟩, fun other hmem => ?_, ?_, fun j l hmem hstarted => ?_,
    fun landing hmem => ?_, ?_⟩
  · rw [answered] at hmem
    rcases List.mem_append.mp hmem with hmem | hmem
    · exact h.named other hmem
    · exact ⟨k, hk, List.mem_singleton.mp hmem⟩
  · simp [Talk.land]
  · obtain rfl : k = l := names.injective hstarted
    rw [answered] at hmem
    rcases List.mem_append.mp hmem with hmem | hmem
    · exact hlast j hmem
    · exact (names.injective (List.mem_singleton.mp hmem)).le
  · rcases List.mem_append.mp hmem with hmem | hmem
    · exact h.landings landing hmem
    · obtain rfl := List.mem_singleton.mp hmem
      exact ⟨k, hk, rfl, htook⟩
  · obtain ⟨js, hjs, sorted, known⟩ := h.promises
    have known' : ∀ j ∈ js, names.name j ∈ s.answered ++ [names.name k] :=
      fun j hj => List.mem_append_left _ (known j hj)
    by_cases next : landed (names.name k) open_ s.started = .nextTurn
    · -- a turn promised now was never answered for, so it is later than all that were
      have new : names.name k ∉ s.answered := by
        intro before
        have same := h.again before hlast
        rw [landed, if_pos ⟨names.ne_empty k, .inr same.symm⟩] at next
        cases next
      refine ⟨js ++ [k], ?_, ?_, ?_⟩
      · simp [promised, Talk.land, List.filter_append, next] at hjs ⊢
        exact hjs
      · rw [List.pairwise_append]
        refine ⟨sorted, List.pairwise_singleton _ _, fun j hj l hl => ?_⟩
        obtain rfl := List.mem_singleton.mp hl
        exact lt_of_le_of_ne (hlast j (known j hj)) fun heq => new (heq ▸ known j hj)
      · intro j hj
        rw [answered]
        rcases List.mem_append.mp hj with hj | hj
        · exact known' j hj
        · rw [List.mem_singleton.mp hj]
          exact List.mem_append_right _ List.mem_cons_self
    · refine ⟨js, ?_, sorted, known'⟩
      simp [promised, Talk.land, List.filter_append, next] at hjs ⊢
      exact hjs

/-- Codex answers a request, with a turn that the answer may name. -/
theorem Told.answer {request : Request} {turn : Option String} (h : Told names s)
    (mine : request ∈ s.requests) (left : t.requests = s.requests.erase request) (pc : t.pc = s.pc) (calls : t.calls = s.calls) (started : t.started = s.started)
    (answered : t.answered = s.answered) (landings : t.landings = s.landings)
    (answer : t.answer = s.answer) (turns : s.turns ≤ t.turns)
    (took : ∀ entry ∈ s.took, entry ∈ t.took)
    (lines : t.lines = s.lines ++ [.reply request.call turn])
    (lands : ∀ name, turn = some name → s.pc.request = some request → Lands names t name) :
    Told names t := by
  apply h.onward pc calls started answered landings turns took
  · intro other hmem
    rw [left] at hmem
    exact List.mem_of_mem_erase hmem
  · intro call name hmem
    rw [lines] at hmem
    rcases List.mem_append.mp hmem with hmem | hmem
    · exact h.replies call name hmem
    · obtain ⟨rfl, -⟩ := Said.reply.inj (List.mem_singleton.mp hmem)
      exact h.requests request mine
  · intro call name hmem hcall
    rw [lines] at hmem
    rcases List.mem_append.mp hmem with hmem | hmem
    · exact (h.coming call name hmem hcall).mono pc answered turns took
    · obtain ⟨rfl, hname⟩ := Said.reply.inj (List.mem_singleton.mp hmem)
      exact lands name hname.symm (h.asked request mine hcall)
  · intro name hanswer
    exact (h.mailbox name (answer ▸ hanswer)).mono pc answered turns took

/-- A line that is no answer. -/
theorem Told.chat {line : Said} (open_ : Option ℕ) (h : Told names s)
    (news : ∀ call turn, line ≠ .reply call turn) :
    Told names ({ s with open_ }.say line) := by
  have old : ∀ call turn, .reply call turn ∈ s.lines ++ [line] → .reply call turn ∈ s.lines := by
    intro call turn hmem
    rcases List.mem_append.mp hmem with hmem | hmem
    · exact hmem
    · exact absurd (List.mem_singleton.mp hmem).symm (news call turn)
  refine h.onward rfl rfl rfl rfl rfl le_rfl (fun _ hmem => hmem) (fun _ hmem => hmem)
    (fun call turn hmem => h.replies call turn (old call turn hmem)) (fun call turn hmem hcall => ?_)
    fun turn hanswer => ?_
  · exact (h.coming call turn (old call _ hmem) hcall).mono rfl rfl le_rfl fun _ hmem => hmem
  · exact (h.mailbox turn hanswer).mono rfl rfl le_rfl fun _ hmem => hmem

/-- Codex opens a turn of its own. -/
theorem Told.began (h : Told names s) : Told names s.opened := by
  have later : s.turns ≤ s.opened.turns := Nat.le_succ _
  refine h.onward rfl rfl rfl rfl rfl later (fun _ hmem => hmem) (fun _ hmem => hmem) h.replies
    (fun call turn hmem hcall => ?_) fun turn hanswer => ?_
  · exact (h.coming call turn hmem hcall).mono rfl rfl later fun _ hmem => hmem
  · exact (h.mailbox turn hanswer).mono rfl rfl later fun _ hmem => hmem

theorem Lands.steer {call send k : ℕ} {turn : String}
    (mine : t.pc.request = some (.steer call send (names.name k))) (known : k < t.turns)
    (took : (send, k) ∈ t.took) : Lands names t turn := by
  rw [Lands]
  cases hpc : t.pc with
  | idle | starting call send open_ => simp [hpc, Pc.request] at mine
  | steering call send open_ =>
    simp only [hpc, Pc.request, Option.some.injEq, Request.steer.injEq] at mine
    obtain ⟨-, rfl, rfl⟩ := mine
    exact ⟨k, known, rfl, took⟩

theorem Lands.start {call send k : ℕ} (mine : t.pc.request = some (.start call send))
    (known : k < t.turns) (took : (send, k) ∈ t.took)
    (latest : ∀ j, names.name j ∈ t.answered → j ≤ k) : Lands names t (names.name k) := by
  rw [Lands]
  cases hpc : t.pc with
  | idle | steering call send open_ => simp [hpc, Pc.request] at mine
  | starting call send open_ =>
    simp only [hpc, Pc.request, Option.some.injEq, Request.start.injEq] at mine
    obtain ⟨-, rfl⟩ := mine
    exact ⟨k, known, rfl, took, latest⟩

/-- Every turn that was answered for is one that Codex opened. -/
theorem Told.opened {j : ℕ} (h : Told names s) (answered : names.name j ∈ s.answered) :
    j < s.turns := by
  obtain ⟨k, hk, hname⟩ := h.named _ answered
  rwa [names.injective hname]

section
variable [Host]

theorem Told.step {stir : Stir} (h : Told names s) (follows : Follows names thread s)
    (stirs : Stirs names thread s stir t) : Told names t := by
  cases stirs with
  | steer | start | restart => exact h.ask rfl rfl rfl rfl rfl rfl rfl rfl rfl rfl rfl rfl
  | failed => exact h.fail
  | steered pc answer => exact h.steered pc answer
  | landed pc answer => exact h.land pc answer
  | refused asked =>
    refine h.answer asked rfl rfl rfl rfl rfl rfl rfl le_rfl (fun _ hmem => hmem) rfl ?_
    rintro _ ⟨⟩
  | @joined call send k turn asked open_ =>
    refine h.answer asked rfl rfl rfl rfl rfl rfl rfl le_rfl
      (fun _ hmem => List.mem_append_left _ hmem) rfl ?_
    rintro name ⟨⟩ mine
    have last := follows.last k open_
    exact Lands.steer mine (Nat.lt_of_succ_le last.le) (List.mem_append_right _ List.mem_cons_self)
  | @folded call send k asked open_ =>
    refine h.answer asked rfl rfl rfl rfl rfl rfl rfl le_rfl
      (fun _ hmem => List.mem_append_left _ hmem) rfl ?_
    rintro name ⟨⟩ mine
    have last := follows.last k open_
    refine Lands.start mine (Nat.lt_of_succ_le last.le)
      (List.mem_append_right _ List.mem_cons_self) fun j answered => ?_
    have := h.opened answered
    omega
  | @opened call send asked open_ =>
    refine h.answer asked rfl rfl rfl rfl rfl rfl rfl (Nat.le_succ _)
      (fun _ hmem => List.mem_append_left _ hmem) rfl ?_
    rintro name ⟨⟩ mine
    exact Lands.start mine (Nat.lt_succ_self _) (List.mem_append_right _ List.mem_cons_self)
      fun j answered => (h.opened answered).le
  | began => exact h.began
  | spoke => exact h.chat s.open_ (by rintro _ _ ⟨⟩)
  | finished => exact h.chat none (by rintro _ _ ⟨⟩)
  | @replied call turn rest lines =>
    have later : ∀ line ∈ rest, line ∈ s.lines := by
      rw [lines]
      exact fun line hmem => List.mem_cons_of_mem _ hmem
    have first : .reply call turn ∈ s.lines := by rw [lines]; exact List.mem_cons_self
    refine h.onward rfl rfl rfl rfl rfl le_rfl (fun _ hmem => hmem) (fun _ hmem => hmem)
      (fun other name hmem => h.replies other name (later _ hmem)) (fun other name hmem hcall => ?_)
      fun name hanswer => ?_
    · exact (h.coming other name (later _ hmem) hcall).mono rfl rfl le_rfl fun _ hmem => hmem
    · have lands : Lands names s name := by
        split_ifs at hanswer with mine
        · obtain rfl := Option.some.inj hanswer
          exact h.coming call name first mine.1
        · exact h.mailbox name hanswer
      exact lands.mono rfl rfl le_rfl fun _ hmem => hmem
  | @heard method params rest lines =>
    have later : ∀ line ∈ rest, line ∈ s.lines := by
      rw [lines]
      exact fun line hmem => List.mem_cons_of_mem _ hmem
    refine h.onward rfl rfl rfl rfl rfl le_rfl (fun _ hmem => hmem) (fun _ hmem => hmem)
      (fun other name hmem => h.replies other name (later _ hmem)) (fun other name hmem hcall => ?_)
      fun name hanswer => ?_
    · exact (h.coming other name (later _ hmem) hcall).mono rfl rfl le_rfl fun _ hmem => hmem
    · exact (h.mailbox name hanswer).mono rfl rfl le_rfl fun _ hmem => hmem

/-- Every run in which Codex keeps its contract: pipes lag, calls are given up or refused, and Codex
opens and ends turns, as they like. -/
abbrev Run (names : TurnNames) (thread : String) : Talk → Prop :=
  (machine thread).Reach (Contract names thread)

theorem told (run : Run names thread s) : Follows names thread s ∧ Told names s := by
  apply run.invariant
  · rintro _ ⟨model, rfl⟩
    exact ⟨.start model, .start⟩
  · intro s stir t _ ih kept hstep
    have stirs := step_cases ih.1 kept hstep
    exact ⟨ih.1.step stirs, ih.2.step ih.1 stirs⟩

/-- Where Codex keeps its contract, a message that `send` reports as delivered was taken by the very turn it is
credited to; no two messages are promised the same turn; and the ENDs heard, with the turns whose
END is still to come, are as many as the turns that were opened, so that every promise has an END of
its own. -/
theorem every_promise_has_its_end (run : Run names thread s) :
    (∀ landing ∈ s.landings, ∃ k < s.turns,
      landing.turn = names.name k ∧ (landing.send, k) ∈ s.took) ∧
    s.promised.Nodup ∧
    Stream.ends s.heard + s.underway thread = s.turns ∧ s.promised.length ≤ s.turns := by
  obtain ⟨follows, told⟩ := told run
  obtain ⟨js, hjs, sorted, known⟩ := told.promises
  have distinct : js.Nodup := sorted.imp fun hlt => hlt.ne
  refine ⟨told.landings, ?_, follows.ends, ?_⟩
  · rw [hjs]
    exact distinct.map names.injective
  · have within : js ⊆ List.range s.turns := by
      intro j hj
      exact List.mem_range.mpr (told.opened (known j hj))
    have hle := (List.subperm_of_subset distinct within).length_le
    rwa [List.length_range, ← List.length_map (f := names.name), ← hjs] at hle

end

section samples
attribute [local instance] Host.ascii

/-- Turns called by as many letters as there were turns up to them. -/
def tally : TurnNames where
  name k := String.ofList (List.replicate (k + 1) 't')
  injective a b h := by
    have hlength := congrArg String.length h
    simpa using hlength
  ne_empty k h := by
    have hlength := congrArg String.length h
    simp at hlength

/-- What Codex says of this turn of thread `a`. -/
def turnNews (turn : ℕ) : Value :=
  .object [("threadId", .string "a"), ("turn", .object [("id", .string (tally.name turn))])]

def fresh : Talk := { shared := Shared.attach {} "a" "m" 0 }

/-- A message opens a turn, the next is folded into it before the turn was heard of, and a third is
steered into it and answered for too late, so that it is sent again and opens another; then the thread
is compacted. -/
def lateSteer : List Stir :=
  let t (turn : ℕ) : Option String := some (tally.name turn)
  [.send, .answer (.start 0 0) (t 0) (some 0), .read, .receive,
    .send, .answer (.start 1 1) (t 0) (some 0), .read, .receive,
    .speak "turn/started" (turnNews 0), .read,
    .send, .answer (.steer 2 2 (tally.name 0)) (some "") (some 0), .timeout, .finish (turnNews 0),
    .answer (.start 3 2) (t 1) (some 1), .read, .read, .read, .receive, .finish (turnNews 1), .begin_,
    .finish (turnNews 2), .read, .read]

theorem every_promise_has_its_end_late : ∃ s : Talk,
    s.landings.map (·.how) = [.nextTurn, .immediate, .nextTurn] ∧
    s.took = [(0, 0), (1, 0), (2, 0), (2, 1)] ∧ s.turns = 3 ∧ s.promised.Nodup ∧
    Stream.ends s.heard + s.underway "a" = s.turns := by
  have run : ∃ s, (machine "a").exec fresh lateSteer = some s ∧
      s.landings.map (·.how) = [.nextTurn, .immediate, .nextTurn] ∧
      s.took = [(0, 0), (1, 0), (2, 0), (2, 1)] ∧ s.turns = 3 :=
    ⟨_, Option.eq_some_of_isSome (by decide +kernel), by decide +kernel, by decide +kernel,
      by decide +kernel⟩
  obtain ⟨s, hs, how, took, turns⟩ := run
  have start : Run tally "a" fresh := .init ⟨"m", rfl⟩
  have kept : (machine "a").Along (Contract tally "a") fresh lateSteer := by decide +kernel
  have account := every_promise_has_its_end (start.exec kept hs)
  exact ⟨s, how, took, turns, account.2.1, account.2.2.1⟩

end samples
end SiliconOmni.Codex.Talk
