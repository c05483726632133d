import Mathlib.Data.List.Count
import SiliconOmni.Python.Chat

/-! Polling a Chat: from the ticket of a send until something ends the wait it reads busy. -/
namespace SiliconOmni.Python

/-- A Chat, and the sends that are waited for: from the ticket on, until the opening of the message
is processed, or an error recorded since that leaves the session waiting, or a stop, a detach or a
disconnect. -/
structure Watch where
  chat : Process := {}
  /-- The calls that send, and their texts. -/
  waits : List (ℕ × String) := []
  /-- The sends whose call raised before the daemon accepted them. -/
  dropped : List ℕ := []

def Record.isOpening (record : Record) : Bool := record.type = .start || record.type = .injected

/-- An error that leaves the session waiting with no turn open. -/
def Record.settles (record : Record) (state : Snapshot) : Bool :=
  record.type = .error && state.status = .waiting && !state.inTurn

namespace Process

/-- The frame the dispatcher is about to process. -/
def handing (s : Process) : Option Frame :=
  match s.caller with
  | some (.holding g frame) => if s.accepted g ∧ s.generation = some g then some frame else none
  | _ => none

/-- The daemon accepted the send before the record was written. -/
def acceptedBefore (s : Process) (seq : ℕ) (wait : ℕ × String) : Bool :=
  (s.taken wait.1).any fun taken => decide (taken.place ≤ seq)

/-- The send a thread has a ticket for. -/
def sending (s : Process) (t : ℕ) : Option (ℕ × Ticket) :=
  match s.pc t with
  | .posting ticket k | .asking _ k (.send ticket) _ => some (k, ticket)
  | _ => none

end Process

namespace Watch

/-- What a frame that is processed ends. -/
def heard (w : Watch) : Frame → List (ℕ × String)
  | .disconnected | .gone _ => []
  | .event seq record snapshot =>
      let state := w.chat.told snapshot
      if state.status = .stopped then []
      else if record.isOpening then
        match record.opens with
        | some k => w.waits.erase (k, record.text)
        | none => w.waits
      else if record.settles state then w.waits.filter fun wait => !w.chat.acceptedBefore seq wait
      else w.waits

/-- The sends still waited for after a step. -/
def after (w : Watch) : Process.Act → List (ℕ × String)
  | .go t => match w.chat.pc t with
      | .noting text => w.waits ++ [(w.chat.calls, text)]
      | .clearing _ | .settled .lost | .settled (.stopped _) => []
      | _ => w.waits
  | .unlinked t => match w.chat.sending t with
      | some (k, ticket) => w.waits.erase (k, ticket.text)
      | none => w.waits
  | .raised t => match w.chat.sending t with
      | some (k, ticket) =>
          if w.chat.taken k = none then w.waits.erase (k, ticket.text) else w.waits
      | none => w.waits
  | .deliver => match w.chat.handing with
      | some frame => w.heard frame
      | none => w.waits
  | .drop c | .hangUp c => if w.chat.connection = some c then [] else w.waits
  | _ => w.waits

def drops (w : Watch) : Process.Act → List ℕ
  | .raised t => match w.chat.sending t with
      | some (k, _) => if w.chat.taken k = none then k :: w.dropped else w.dropped
      | none => w.dropped
  | _ => w.dropped

def step (w : Watch) (act : Process.Act) : Option Watch :=
  (w.chat.step act).map fun chat => { chat, waits := w.after act, dropped := w.drops act }

def machine : Lib.Machine Watch Process.Act where
  init w := w = {}
  step := step

/-- What may end the wait of a send by mistake: no opening of another message fits a ticket, no
error that settles the session is older than a send it would release, and no call that raises
takes the ticket of an accepted send with it. -/
def Timely (w : Watch) : Process.Act → Prop
  | .deliver => match w.chat.handing with
      | some (.event seq record snapshot) =>
          let state := w.chat.told snapshot
          (record.isOpening = true → (∃ k, record.opens = some k ∧ (k, record.text) ∈ w.waits) ∨
            ∀ ticket ∈ w.chat.awaiting, ticket.text = record.text → ¬ticket.after < seq) ∧
          (record.settles state = true → ∀ wait ∈ w.waits, w.chat.acceptedBefore seq wait = true)
      | _ => True
  | .raised t | .unlinked t => match w.chat.sending t with
      | some (k, ticket) =>
          if (k, ticket.text) ∈ w.waits then w.chat.taken k = none
          else ticket ∈ w.chat.awaiting → ∀ wait ∈ w.waits, wait.2 ≠ ticket.text
      | none => True
  | .accept k => k ∉ w.dropped
  | _ => True

/-- There is a ticket for every send that is waited for. -/
def Covered (waits : List (ℕ × String)) (awaiting : List Ticket) : Prop :=
  ∀ text, waits.countP (fun wait => wait.2 = text) ≤ awaiting.countP fun ticket => ticket.text = text

theorem Covered.nil (awaiting : List Ticket) : Covered [] awaiting := fun _ => Nat.zero_le _

theorem Covered.note {waits : List (ℕ × String)} {awaiting : List Ticket} (h : Covered waits awaiting)
    (k : ℕ) (ticket : Ticket) : Covered (waits ++ [(k, ticket.text)]) (awaiting ++ [ticket]) := by
  intro text
  have hold := h text
  rw [List.countP_append, List.countP_append]
  by_cases htext : ticket.text = text
  · simpa [htext] using hold
  · simpa [htext] using hold

/-- A ticket and its send go together. -/
theorem Covered.erase {waits : List (ℕ × String)} {awaiting : List Ticket} (h : Covered waits awaiting)
    {k : ℕ} {ticket : Ticket} (hmem : (k, ticket.text) ∈ waits) :
    Covered (waits.erase (k, ticket.text)) (awaiting.erase ticket) := by
  intro text
  have hold := h text
  rw [List.countP_erase, List.countP_erase]
  by_cases htext : ticket.text = text
  · have hone : (k, ticket.text) ∈ waits ∧ decide ((k, ticket.text).2 = text) = true :=
      ⟨hmem, by simpa using htext⟩
    rw [if_pos hone]
    split_ifs <;> omega
  · have hno : ¬(decide (ticket.text = text) = true) := by simpa using htext
    rw [if_neg fun h => hno h.2, if_neg fun h => hno h.2]
    exact hold

/-- A ticket goes that no send which is waited for needs. -/
theorem Covered.spare {waits : List (ℕ × String)} {awaiting : List Ticket} (h : Covered waits awaiting)
    {ticket : Ticket} (hspare : ticket ∈ awaiting → ∀ wait ∈ waits, wait.2 ≠ ticket.text) :
    Covered waits (awaiting.erase ticket) := by
  intro text
  have hold := h text
  by_cases hmem : ticket ∈ awaiting
  · by_cases htext : ticket.text = text
    · have hnone : waits.countP (fun wait => wait.2 = text) = 0 := by
        rw [List.countP_eq_zero]
        intro wait hwait
        simpa [htext] using hspare hmem wait hwait
      rw [hnone]
      exact Nat.zero_le _
    · rw [List.countP_erase]
      simpa [htext] using hold
  · rwa [List.erase_of_not_mem hmem]

/-- The opening of a message takes a ticket of the same text, if any. -/
theorem Covered.opened {waits : List (ℕ × String)} {awaiting : List Ticket}
    (h : Covered waits awaiting) {k : ℕ} {text : String} (hmem : (k, text) ∈ waits)
    {fits : Ticket → Bool} (hfits : ∀ ticket, fits ticket = true → ticket.text = text) :
    Covered (waits.erase (k, text)) (awaiting.eraseP fits) := by
  intro text'
  have hold := h text'
  rw [List.countP_erase]
  by_cases htext : text = text'
  · subst htext
    have hone : (k, text) ∈ waits ∧ decide ((k, text).2 = text) = true := ⟨hmem, by simp⟩
    rw [if_pos hone]
    rcases List.exists_or_eq_self_of_eraseP fits awaiting with hsame | ⟨a, l₁, l₂, _, _, hl, he⟩
    · rw [hsame]
      omega
    · rw [he]
      rw [hl] at hold
      rw [List.countP_append, List.countP_cons] at hold
      rw [List.countP_append]
      split_ifs at hold <;> omega
  · rw [if_neg fun hif => htext (by simpa using hif.2)]
    refine le_trans hold ?_
    rcases List.exists_or_eq_self_of_eraseP fits awaiting with hsame | ⟨a, l₁, l₂, _, ha, hl, he⟩
    · rw [hsame]
    · have hother : ¬decide (a.text = text') = true := by
        rw [hfits a ha]
        simpa using htext
      rw [he, hl, List.countP_append, List.countP_append, List.countP_cons, if_neg hother,
        Nat.add_zero]

end Watch

namespace Process
variable {s s' : Process} {t : ℕ}

@[simp] theorem link_awaiting (s : Process) : s.link.1.awaiting = s.awaiting := by
  unfold link connect
  repeat' split
  all_goals rfl

@[simp] theorem dispatching_awaiting (s : Process) : s.dispatching.awaiting = s.awaiting := by
  unfold dispatching
  split_ifs <;> rfl

theorem enter_awaiting (s : Process) (t : ℕ) (since : ℤ) (why : Why) :
    (s.enter t since why).awaiting = s.awaiting := by
  unfold enter
  split_ifs
  · rfl
  · rfl
  · exact link_awaiting { s with opened := false }

theorem succeed_awaiting (s : Process) (t g : ℕ) (since : ℤ) (why : Why)
    (snapshot : Option Snapshot) : (s.succeed t g since why snapshot).awaiting = s.awaiting :=
  dispatching_awaiting _

theorem answer_awaiting (s : Process) (t c : ℕ) (snapshot : Option Snapshot) (ask : Ask) :
    (s.answer t c snapshot ask).awaiting = s.awaiting := by
  cases ask <;> rfl

theorem reply_awaiting (s : Process) (c k : ℕ) (snapshot : Snapshot) (ask : Ask) :
    (s.reply c k snapshot ask).awaiting = s.awaiting := by
  cases ask <;> rfl

theorem lose_awaiting (s : Process) (connection : Option ℕ) :
    (s.lose connection).awaiting = s.awaiting := by
  unfold lose
  cases connection <;> rfl

/-- Tickets come with a send, and go with an event, a call that raises or the end of it all. -/
theorem step_awaiting {act : Act} (hstep : s.step act = some s') (hgo : ∀ t, act ≠ .go t)
    (hunlinked : ∀ t, act ≠ .unlinked t) (hraised : ∀ t, act ≠ .raised t) (hdeliver : act ≠ .deliver) :
    s'.awaiting = s.awaiting := by
  cases moves_of_step hstep with
  | go => exact absurd rfl (hgo _)
  | unlinked | unposted => exact absurd rfl (hunlinked _)
  | refuse | raise => exact absurd rfl (hraised _)
  | deliver | discard => exact absurd rfl hdeliver
  | enter => exact enter_awaiting ..
  | history => exact link_awaiting s
  | succeed => exact succeed_awaiting ..
  | answer => exact answer_awaiting ..
  | serve => exact reply_awaiting ..
  | @pump c line rest => cases line <;> rfl
  | arrived | ended =>
    dsimp only
    split_ifs
    · exact dispatching_awaiting _
    · rfl
  | _ => rfl

end Process

namespace Watch
variable {w w' : Watch} {t : ℕ}

/-- A call that raises takes its ticket along. -/
theorem Covered.raised {k : ℕ} {ticket : Ticket} (h : Covered w.waits w.chat.awaiting)
    (htimely : if (k, ticket.text) ∈ w.waits then w.chat.taken k = none
      else ticket ∈ w.chat.awaiting → ∀ wait ∈ w.waits, wait.2 ≠ ticket.text) :
    Covered (w.waits.erase (k, ticket.text)) (w.chat.awaiting.erase ticket) := by
  by_cases hmem : (k, ticket.text) ∈ w.waits
  · exact h.erase hmem
  · rw [if_neg hmem] at htimely
    rw [List.erase_of_not_mem hmem]
    exact h.spare htimely

/-- A frame that is processed releases no ticket that is needed. -/
theorem Covered.heard {g : ℕ} {frame : Frame} (h : Covered w.waits w.chat.awaiting)
    (hhanding : w.chat.handing = some frame) (htimely : w.Timely .deliver) :
    Covered (w.heard frame) (w.chat.deliver g frame).awaiting := by
  cases frame with
  | disconnected => exact .nil _
  | gone snapshot => exact .nil _
  | event seq record snapshot =>
    simp only [Timely, hhanding] at htimely
    obtain ⟨hopening, hsettles⟩ := htimely
    show Covered (w.heard (.event seq record snapshot))
      (if (w.chat.told snapshot).status = .stopped then []
        else Process.release w.chat.awaiting seq record (w.chat.told snapshot))
    unfold Watch.heard
    by_cases hstopped : (w.chat.told snapshot).status = .stopped
    · simp only [hstopped, if_true]
      exact .nil _
    simp only [hstopped, if_false]
    unfold Process.release
    by_cases hopen : record.isOpening = true
    · have htype : record.type = .start ∨ record.type = .injected := by
        simpa [Record.isOpening] using hopen
      rw [if_pos hopen, if_pos htype]
      have hfits : ∀ ticket : Ticket,
          (decide (ticket.after < (seq : ℤ)) && record.text == ticket.text) = true →
          ticket.text = record.text := by
        intro ticket hticket
        rw [Bool.and_eq_true, beq_iff_eq] at hticket
        exact hticket.2.symm
      rcases hopening hopen with ⟨k, hk, hmem⟩ | hnone
      · rw [hk]
        exact h.opened hmem hfits
      · have hsame : w.chat.awaiting.eraseP (fun ticket : Ticket =>
            decide (ticket.after < (seq : ℤ)) && record.text == ticket.text) = w.chat.awaiting := by
          refine List.eraseP_of_forall_not fun ticket hticket hfit => ?_
          rw [Bool.and_eq_true, decide_eq_true_eq, beq_iff_eq] at hfit
          exact hnone ticket hticket hfit.2.symm hfit.1
        rw [hsame]
        intro text
        refine le_trans ?_ (h text)
        cases record.opens with
        | none => exact le_rfl
        | some k => exact (List.erase_sublist ..).countP_le
    · have htype : ¬(record.type = .start ∨ record.type = .injected) := by
        simpa [Record.isOpening] using hopen
      rw [if_neg hopen, if_neg htype]
      by_cases hsettle : record.settles (w.chat.told snapshot) = true
      · have hall : (w.waits.filter fun wait => !w.chat.acceptedBefore seq wait) = [] := by
          refine List.filter_eq_nil_iff.mpr fun wait hwait => ?_
          simpa using hsettles hsettle wait hwait
        rw [if_pos hsettle, hall]
        exact .nil _
      · have herror : ¬(record.type = .error ∧ (w.chat.told snapshot).status = .waiting ∧
            (!(w.chat.told snapshot).inTurn) = true) := by
          simpa [Record.settles, and_assoc] using hsettle
        rw [if_neg hsettle, if_neg herror]
        exact h

theorem Covered.go {chat : Process} (h : Covered w.waits w.chat.awaiting)
    (hstep : w.chat.step (.go t) = some chat) : Covered (w.after (.go t)) chat.awaiting := by
  change w.chat.go t (w.chat.pc t) = some chat at hstep
  cases hpc : w.chat.pc t with
  | noting text =>
    rw [hpc] at hstep
    cases hstep
    simp only [Watch.after, hpc]
    exact h.note w.chat.calls ⟨text, max w.chat.seen w.chat.state.seq⟩
  | posting ticket k =>
    rw [hpc] at hstep
    cases hstep
    simp only [Watch.after, hpc]
    show Covered w.waits w.chat.link.1.awaiting
    rwa [Process.link_awaiting]
  | refreshing =>
    rw [hpc] at hstep
    simp only [Process.go] at hstep
    simp only [Watch.after, hpc]
    split at hstep
    all_goals cases hstep
    all_goals exact h
  | losing connection =>
    rw [hpc] at hstep
    cases hstep
    simp only [Watch.after, hpc]
    show Covered w.waits (w.chat.lose connection).awaiting
    rwa [Process.lose_awaiting]
  | unlistening left =>
    rw [hpc] at hstep
    simp only [Process.go] at hstep
    simp only [Watch.after, hpc]
    split at hstep
    all_goals cases hstep
    all_goals exact h
  | clearing left =>
    simp only [Watch.after, hpc]
    exact .nil _
  | signing left =>
    rw [hpc] at hstep
    simp only [Process.go] at hstep
    simp only [Watch.after, hpc]
    split_ifs at hstep
    all_goals cases hstep
    all_goals exact h
  | settled left =>
    rw [hpc] at hstep
    cases hstep
    simp only [Watch.after, hpc]
    cases left with
    | detached => exact h
    | lost => exact .nil _
    | stopped connection => exact .nil _
  | idle | starting | opening | asking =>
    rw [hpc] at hstep
    cases hstep

theorem Covered.step {act : Process.Act} (h : Covered w.waits w.chat.awaiting) (timely : w.Timely act)
    (hstep : w.step act = some w') : Covered w'.waits w'.chat.awaiting := by
  obtain ⟨chat, hchat, rfl⟩ := Option.map_eq_some_iff.mp hstep
  show Covered (w.after act) chat.awaiting
  cases act with
  | go t => exact h.go hchat
  | unlinked t =>
    cases Process.moves_of_step hchat with
    | unlinked starting =>
      simp only [Watch.after, Process.sending, starting]
      exact h
    | unposted posting =>
      simp only [Timely, Process.sending, posting] at timely
      simp only [Watch.after, Process.sending, posting]
      exact h.raised timely
  | raised t =>
    cases Process.moves_of_step hchat with
    | refuse opening =>
      simp only [Watch.after, Process.sending, opening]
      exact h
    | @raise _ c k ask served asking =>
      cases ask with
      | send ticket =>
        simp only [Timely, Process.sending, asking] at timely
        simp only [Watch.after, Process.sending, asking]
        show Covered _ (w.chat.awaiting.erase ticket)
        have hraised := h.raised timely
        split_ifs with htaken
        · exact hraised
        · by_cases hmem : (k, ticket.text) ∈ w.waits
          · rw [if_pos hmem] at timely
            exact absurd timely htaken
          · rwa [List.erase_of_not_mem hmem] at hraised
      | status | detach | stop =>
        simp only [Watch.after, Process.sending, asking]
        exact h
  | deliver =>
    cases Process.moves_of_step hchat with
    | @deliver g frame holding ready unlocked accepted current =>
      have hhanding : w.chat.handing = some frame := by
        simp only [Process.handing, holding]
        rw [if_pos ⟨accepted, current⟩]
      simp only [Watch.after, hhanding]
      exact h.heard hhanding timely
    | discard holding ready unlocked stale =>
      have hhanding : w.chat.handing = none := by
        simp only [Process.handing, holding]
        rw [if_neg stale]
      simp only [Watch.after, hhanding]
      exact h
  | drop c | hangUp c =>
    rw [Process.step_awaiting hchat (by rintro _ ⟨⟩) (by rintro _ ⟨⟩) (by rintro _ ⟨⟩) (by rintro ⟨⟩)]
    unfold Watch.after
    dsimp only
    split_ifs
    · exact .nil _
    · exact h
  | _ =>
    rw [Process.step_awaiting hchat (by rintro _ ⟨⟩) (by rintro _ ⟨⟩) (by rintro _ ⟨⟩) (by rintro ⟨⟩)]
    exact h

/-- While a send is waited for, the status reads busy and the Chat is not idle. -/
theorem no_false_lull (h : machine.Reach Timely w) {wait : ℕ × String} (hwait : wait ∈ w.waits) :
    w.chat.status = .busy ∧ w.chat.isIdle = false := by
  have covered : Covered w.waits w.chat.awaiting := by
    refine h.invariant (I := fun w => Covered w.waits w.chat.awaiting) ?_ ?_
    · rintro _ rfl
      exact .nil _
    · exact fun _ _ _ _ hinv timely hstep => hinv.step timely hstep
  have hpos : 0 < w.waits.countP fun other => other.2 = wait.2 :=
    List.countP_pos_iff.mpr ⟨wait, hwait, by simp⟩
  obtain ⟨ticket, hticket, _⟩ := List.countP_pos_iff.mp (lt_of_lt_of_le hpos (covered wait.2))
  have hne : w.chat.awaiting ≠ [] := List.ne_nil_of_mem hticket
  refine ⟨if_neg hne, ?_⟩
  simp [Process.isIdle, hne]

instance (w : Watch) (record : Record) :
    Decidable (∃ k, record.opens = some k ∧ (k, record.text) ∈ w.waits) :=
  decidable_of_iff ((record.opens.any fun k => decide ((k, record.text) ∈ w.waits)) = true) (by
    simp [Option.any_eq_true])

instance (w : Watch) : (act : Process.Act) → Decidable (w.Timely act)
  | .deliver => match h : w.chat.handing with
      | some (.event seq record snapshot) =>
          decidable_of_iff
            ((record.isOpening = true → (∃ k, record.opens = some k ∧ (k, record.text) ∈ w.waits) ∨
              ∀ ticket ∈ w.chat.awaiting, ticket.text = record.text → ¬ticket.after < seq) ∧
            (record.settles (w.chat.told snapshot) = true →
              ∀ wait ∈ w.waits, w.chat.acceptedBefore seq wait = true))
            (by simp only [Timely, h])
      | none | some .disconnected | some (.gone _) => .isTrue (by simp [Timely, h])
  | .raised t | .unlinked t => match h : w.chat.sending t with
      | some (k, ticket) =>
          decidable_of_iff (if (k, ticket.text) ∈ w.waits then w.chat.taken k = none
            else ticket ∈ w.chat.awaiting → ∀ wait ∈ w.waits, wait.2 ≠ ticket.text)
            (by simp only [Timely, h])
      | none => .isTrue (by simp [Timely, h])
  | .accept k => inferInstanceAs (Decidable (k ∉ w.dropped))
  | .start .. | .send .. | .refresh _ | .history _ | .detach _ | .stop _ | .enter _ | .answered _
  | .go _ | .record _ | .attach _ | .serve .. | .stream .. | .part .. | .drop _ | .pump _
  | .arrived _ | .hangUp _ | .get | .called | .ended => .isTrue trivial

/-- The first open, and a record that is on its way when a message is sent. -/
def sendPast (record : Record) : List Process.Act :=
  [.start 0 0, .enter 0, .attach 0, .serve 0 { status := .waiting }, .pump 0, .answered 0,
    .record record, .stream 0 { status := .waiting, seq := 0 }, .pump 0,
    .send 0 "go", .go 0, .go 0, .accept 1, .arrived 0, .serve 0 { status := .busy, seq := 0 },
    .pump 0, .answered 0, .get, .deliver]

/-- A setting from before the send leaves its ticket alone. -/
theorem no_false_lull_setting :
    ∃ w : Watch, w.chat.state.status = .waiting ∧ w.chat.status = .busy ∧ w.chat.isIdle = false := by
  let moves := sendPast { type := .config }
  have run : ∃ w, machine.exec {} moves = some w ∧ (1, "go") ∈ w.waits ∧
      w.chat.state.status = .waiting :=
    ⟨_, Option.eq_some_of_isSome (by decide +kernel), by decide +kernel, by decide +kernel⟩
  obtain ⟨w, hrun, hwait, hstatus⟩ := run
  have along : machine.Along Timely {} moves := by decide +kernel
  exact ⟨w, hstatus, no_false_lull ((Lib.Machine.Reach.init rfl).exec along hrun) hwait⟩

/-- An error from before the send takes its ticket. -/
theorem lull_after_error :
    ∃ w : Watch, machine.Reach (fun _ _ => True) w ∧ (1, "go") ∈ w.waits ∧
      (w.chat.taken 1).isSome = true ∧ w.chat.status = .waiting ∧ w.chat.isIdle = true := by
  let moves := sendPast { type := .error } ++ [.called]
  have run : ∃ w, machine.exec {} moves = some w ∧ (1, "go") ∈ w.waits ∧
      (w.chat.taken 1).isSome = true ∧ w.chat.status = .waiting ∧ w.chat.isIdle = true :=
    ⟨_, Option.eq_some_of_isSome (by decide +kernel), by decide +kernel, by decide +kernel,
      by decide +kernel, by decide +kernel⟩
  obtain ⟨w, hrun, hlull⟩ := run
  have along := Lib.Machine.along_of_forall (M := machine) (fun _ _ => trivial) {} moves
  exact ⟨w, (Lib.Machine.Reach.init rfl).exec along hrun, hlull⟩

end Watch
end SiliconOmni.Python
