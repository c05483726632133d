import SiliconOmni.Daemon.Requests
import SiliconOmni.Journal
import SiliconOmni.Lib.Lines
import SiliconOmni.Wire

/-! The two streams of a connection: what the daemon's `talk` makes of the lines a client wrote, and
what the client's `read_daemon` makes of those the daemon wrote, wherever the stream ends or
breaks. -/
namespace SiliconOmni.Wire
open Jsonl (Bytes newline Prints)
open Lib.Lines
open Client (Reply)

/-- Whether the bytes are UTF-8. -/
def isText (bytes : Bytes) : Bool := (String.fromUTF8? ⟨bytes.toArray⟩).isSome

theorem isText_iff {bytes : Bytes} :
    isText bytes = true ↔ ByteArray.IsValidUTF8 ⟨bytes.toArray⟩ := by
  unfold isText String.fromUTF8?
  split <;> simp_all

theorem isText_line {bytes : Bytes} (h : isText bytes = true) :
    isText (bytes ++ [newline]) = true := by
  have hline : ByteArray.IsValidUTF8 ⟨[newline].toArray⟩ := isText_iff.mp (by decide +kernel)
  have happend := (isText_iff.mp h).append hline
  rw [isText_iff]
  convert happend
  simp

section spoken
variable {M : Type} (serde : Serde) (coding : Coding M)

/-- What the bytes are read as, if as anything. -/
def readAs (bytes : Bytes) : Option M := (serde.parse bytes).toOption.bind coding.decode

/-- One line as the other side may have written it: a message, however its object is laid out and
whatever a newer version adds to it, or a line that no message is read from. -/
inductive Spoken : Bytes → Option M → Prop where
  | message {text : Bytes} {m : Fields} {message : M} (prints : Prints serde.parse text (.object m))
      (utf8 : isText text = true) (closed : text.getLast? ≠ some 13)
      (sends : coding.Sends message m) : Spoken text (some message)
  | other {text : Bytes} (plain : newline ∉ text) (some_ : text ≠ []) (utf8 : isText text = true)
      (unread : ∀ piece, piece <+: text → readAs serde coding piece = none)
      (line : readAs serde coding (text ++ [newline]) = none) : Spoken text none

/-- What the lines that arrived mean: each but for its newline, or with it where the connection
broke. -/
def whole (broken : Bool) : ℕ → List (Bytes × Option M) → List M
  | _, [] => []
  | n, line :: later =>
      if line.1.length + broken.toNat ≤ n then
        line.2.toList ++ whole broken (n - (line.1.length + 1)) later
      else []

/-- The lines as they are written. -/
def stream (said : List (Bytes × Option M)) : Bytes := said.flatMap fun line => line.1 ++ [newline]

theorem whole_all {said : List (Bytes × Option M)} {broken : Bool} {n : ℕ}
    (all : (stream said).length ≤ n) : whole broken n said = said.filterMap (·.2) := by
  induction said generalizing n with
  | nil => rfl
  | cons line later ih =>
    have hlen : (stream (line :: later)).length = line.1.length + 1 + (stream later).length := by
      simp only [stream, List.flatMap_cons, List.length_append, List.length_singleton]
    have hbroken := broken.toNat_le
    rw [whole, if_pos (by omega), ih (by omega)]
    cases hmade : line.2 <;> simp [hmade]

end spoken

section
variable {M : Type} {serde : Serde} {coding : Coding M} {text : Bytes} {made : Option M}

theorem Spoken.plain (h : Spoken serde coding text made) : newline ∉ text := by
  cases h with
  | message prints => exact prints.plain
  | other plain => exact plain

theorem Spoken.some_ (h : Spoken serde coding text made) : text ≠ [] := by
  cases h with
  | message prints => exact prints.some_
  | other plain some_ => exact some_

theorem Spoken.utf8 (h : Spoken serde coding text made) : isText text = true := by
  cases h with
  | message prints utf8 => exact utf8
  | other plain some_ utf8 => exact utf8

theorem Spoken.readAs (h : Spoken serde coding text made) : readAs serde coding text = made := by
  cases h with
  | message prints utf8 closed sends =>
    unfold Wire.readAs
    rw [prints.parses]
    exact coding.decodes sends
  | other plain some_ utf8 unread => exact unread text List.prefix_rfl

theorem Spoken.delimited (h : Spoken serde coding text made) :
    Wire.readAs serde coding (text ++ [newline]) = made := by
  cases h with
  | message prints utf8 closed sends =>
    unfold Wire.readAs
    rw [prints.delimited]
    exact coding.decodes sends
  | other plain some_ utf8 unread line => exact line

theorem Spoken.torn (h : Spoken serde coding text made) {piece : Bytes} (begins : piece <+: text)
    (apart : piece ≠ text) : Wire.readAs serde coding piece = none := by
  cases h with
  | message prints =>
    obtain ⟨why, hwhy⟩ := prints.torn piece begins apart
    unfold Wire.readAs
    rw [hwhy]
    rfl
  | other plain some_ utf8 unread => exact unread piece begins

end

section client
variable (serde : Serde)

/-- A line as `lines` returns it: its newline off, and a carriage return before that. -/
def chomp (line : Bytes) : Bytes :=
  if line.getLast? = some newline then
    if line.dropLast.getLast? = some 13 then line.dropLast.dropLast else line.dropLast
  else line

/-- What `read_daemon` makes of one line: a line that is not a message is passed by, one that is
not UTF-8 ends the connection. -/
def incoming (line : Bytes) : Verdict Incoming :=
  if isText line then { made := (readAs serde incomings (chomp line)).toList }
  else { goes := false }

/-- What `read_daemon` takes in of a stream that ends, or breaks: a read that fails ends the loop,
and the line it was in is lost. -/
def readDaemon (broken : Bool) (received : Bytes) : List Incoming :=
  hear (incoming serde) (readLines broken newline received)

end client

section client
variable {serde : Serde} {text : Bytes} {made : Option Incoming}

theorem chomp_bare (plain : newline ∉ text) : chomp text = text := by
  unfold chomp
  rw [if_neg fun hlast => plain (List.mem_of_getLast? hlast)]

theorem readAs_chomp (h : Spoken serde incomings text made) :
    readAs serde incomings (chomp (text ++ [newline])) = made := by
  unfold chomp
  rw [if_pos List.getLast?_concat, List.dropLast_concat]
  cases h with
  | message prints utf8 closed sends =>
    rw [if_neg closed]
    exact (Spoken.message prints utf8 closed sends).readAs
  | other plain some_ utf8 unread line =>
    split
    · exact unread _ (List.dropLast_prefix text)
    · exact unread _ List.prefix_rfl

theorem Spoken.judged (h : Spoken serde incomings text made) :
    Judged newline (incoming serde) text { made := made.toList } := by
  have hline := isText_line h.utf8
  refine ⟨h.plain, h.some_, ?_, ?_⟩
  · unfold incoming
    rw [if_pos hline, readAs_chomp h]
  · unfold incoming
    rw [if_pos h.utf8, chomp_bare h.plain, h.readAs]

theorem incoming_torn (h : Spoken serde incomings text made) {piece : Bytes}
    (begins : piece <+: text) (apart : piece ≠ text) : (incoming serde piece).made = [] := by
  have hplain : newline ∉ piece := fun hmem => h.plain (begins.subset hmem)
  unfold incoming
  rw [chomp_bare hplain, h.torn begins apart]
  split <;> rfl

theorem arrived_whole {M : Type} (broken : Bool) (said : List (Bytes × Option M)) (n : ℕ) :
    arrived broken n (said.map fun line => (line.1, { made := line.2.toList })) =
      whole broken n said := by
  induction said generalizing n with
  | nil => rfl
  | cons line later ih => rw [List.map_cons, arrived, whole, ih, if_pos rfl]

theorem sentLines_stream {M N : Type} (said : List (Bytes × Option M))
    (judge : Option M → Verdict N) :
    sentLines newline (said.map fun line => (line.1, judge line.2)) = stream said := by
  simp [sentLines, stream, List.flatMap_map]

/-- Wherever the connection ends or breaks, the client takes in the messages that the daemon wrote,
replies as replies and frames as frames, in order and none twice, up to the last that arrived; and
no line of another kind, nor a torn one, is taken for a message. -/
theorem heard_as_said {said : List (Bytes × Option Incoming)}
    (spoken : ∀ line ∈ said, Spoken serde incomings line.1 line.2) (broken : Bool) (n : ℕ) :
    readDaemon serde broken ((stream said).take n) = whole broken n said ∧
      readDaemon serde broken (stream said) = said.filterMap (·.2) := by
  have cut (n : ℕ) : readDaemon serde broken ((stream said).take n) = whole broken n said := by
    have judged : ∀ record ∈ said.map fun line => (line.1, ({ made := line.2.toList } : Verdict _)),
        Judged newline (incoming serde) record.1 record.2 := by
      intro record hrecord
      obtain ⟨line, hline, rfl⟩ := List.mem_map.mp hrecord
      exact (spoken line hline).judged
    unfold readDaemon
    have hsent := sentLines_stream said fun made => ({ made := made.toList } : Verdict _)
    rw [← hsent, hear_arrived judged, arrived_whole]
    intro record hrecord piece begins apart
    obtain ⟨line, hline, rfl⟩ := List.mem_map.mp hrecord
    exact incoming_torn (spoken line hline) begins apart
  refine ⟨cut n, ?_⟩
  have hall := cut (stream said).length
  rw [List.take_length, whole_all le_rfl] at hall
  exact hall

end client

section daemon
variable [Host] (serde : Serde) (misread : Bytes → String)

/-- What the reader of a connection does with a line: answer it, or hand on the request in it. -/
inductive Heard where
  | refused (reply : Reply)
  | request (request : Request)
  deriving DecidableEq

def Heard.asked : Heard → Option Request
  | .refused _ => none
  | .request r => some r

/-- The request in a line, or why there is none. `from_str` reads no value first, and refuses one
key twice: whatever keeps it from reading an object is what `serde.parse` says here. -/
def requestIn (line : Bytes) : Except String Request :=
  (serde.parse line).bind fun value =>
    match Request.ofValue value with
    | some request => .ok request
    | none => .error (serde.undecodable value)

def SHUTTING_DOWN : String := "the omni daemon is shutting down"

/-- What `talk` makes of a request: a shutdown it answers itself, and reads no more; any other is
for a task, if admission is still open. -/
def handed (admits : Bool) (request : Request) : Verdict Heard :=
  if request.op = "shutdown" then { made := [.request request], goes := false }
  else if admits then { made := [.request request] }
  else { made := [.refused (Reply.failed request.id SHUTTING_DOWN)], goes := false }

/-- What `talk` makes of one line; bytes that are not UTF-8 end the connection. -/
def heard (admits : Bool) (line : Bytes) : Verdict Heard :=
  match String.fromUTF8? ⟨line.toArray⟩ with
  | none =>
      let err := misread line
      { made := [.refused (Reply.failed 0 s!"request is not UTF-8: {err}")], goes := false }
  | some text =>
      if Host.trim text = "" then {}
      else match requestIn serde line with
        | .ok request => handed admits request
        | .error err => { made := [.refused (Reply.failed 0 s!"that was not a request: {err}")] }

/-- What should come of requests: each is taken, up to a shutdown, or to the one that finds
admission closed and is told so. -/
def answered (admits : ℕ → Bool) : ℕ → List Request → List Heard
  | _, [] => []
  | begun, request :: later =>
      if request.op = "shutdown" then [.request request]
      else if admits begun then .request request :: answered admits (begun + 1) later
      else [.refused (Reply.failed request.id SHUTTING_DOWN)]

/-- Blank text is no JSON. -/
def BlankUnread : Prop :=
  ∀ line text, String.fromUTF8? ⟨line.toArray⟩ = some text → Host.trim text = "" →
    ∃ why, serde.parse line = .error why

end daemon

section daemon
variable [Host] {serde : Serde} {misread : Bytes → String} {text line : Bytes}
  {made : Option Request} {admits : ℕ → Bool}

/-- What comes of what the reader would make of its lines if admission stayed open. -/
def admitted (admits : ℕ → Bool) : ℕ → List Heard → List Heard
  | _, [] => []
  | begun, .refused reply :: later => .refused reply :: admitted admits begun later
  | begun, .request request :: later =>
      if request.op = "shutdown" then [.request request]
      else if admits begun then .request request :: admitted admits (begun + 1) later
      else [.refused (Reply.failed request.id SHUTTING_DOWN)]

/-- How the reads of a connection end. -/
def ending : Option String → Daemon.Answer
  | none => .eof
  | some err => .failed err

omit [Host] in
theorem requestIn_ok {request : Request} :
    requestIn serde line = .ok request ↔ readAs serde requests line = some request := by
  unfold requestIn readAs
  cases serde.parse line with
  | error why => simp [Except.bind, Except.toOption]
  | ok value =>
    show (match Request.ofValue value with
      | some request => Except.ok request
      | none => .error (serde.undecodable value)) = _ ↔ Request.ofValue value = some request
    cases Request.ofValue value <;> simp

/-- A request as it is handed on, and the reader goes on but for a shutdown. -/
def asking {N : Type} (wrap : Request → N) (made : Option Request) : Verdict N where
  made := (made.map wrap).toList
  goes := made.all fun request => request.op ≠ "shutdown"

theorem heard_request (blank : BlankUnread serde) (utf8 : isText line = true) {request : Request}
    (reads : readAs serde requests line = some request) :
    heard serde misread true line = asking .request (some request) := by
  obtain ⟨decoded, hdecoded⟩ := Option.isSome_iff_exists.mp utf8
  have hbright : Host.trim decoded ≠ "" := by
    intro hblank
    obtain ⟨why, hwhy⟩ := blank line decoded hdecoded hblank
    unfold readAs at reads
    rw [hwhy] at reads
    cases reads
  unfold heard
  rw [hdecoded]
  dsimp only
  rw [if_neg hbright, requestIn_ok.mpr reads]
  dsimp only
  unfold handed
  by_cases hshut : request.op = "shutdown"
  · simp [asking, hshut]
  · simp [asking, hshut]

/-- Of a line in which there is no request, at most a refusal is made. -/
theorem heard_none (utf8 : isText line = true) (unread : readAs serde requests line = none) :
    (heard serde misread true line).made.filterMap Heard.asked = [] ∧
      (heard serde misread true line).goes = true := by
  obtain ⟨decoded, hdecoded⟩ := Option.isSome_iff_exists.mp utf8
  unfold heard
  rw [hdecoded]
  dsimp only
  split
  · exact ⟨rfl, rfl⟩
  · cases hrequest : requestIn serde line with
    | ok request =>
      rw [requestIn_ok, unread] at hrequest
      cases hrequest
    | error why => exact ⟨rfl, rfl⟩

/-- Only the requests in what is made of a line. -/
def asked (serde : Serde) (misread : Bytes → String) (line : Bytes) : Verdict Request :=
  { made := (heard serde misread true line).made.filterMap Heard.asked,
    goes := (heard serde misread true line).goes }

theorem Spoken.asked (blank : BlankUnread serde) (h : Spoken serde requests text made) :
    Judged newline (asked serde misread) text (asking id made) := by
  have judge {line : Bytes} (utf8 : isText line = true)
      (reads : Wire.readAs serde requests line = made) :
      Wire.asked serde misread line = asking id made := by
    unfold Wire.asked
    cases made with
    | none =>
      obtain ⟨hmade, hgoes⟩ := @heard_none _ serde misread line utf8 reads
      rw [hmade, hgoes]
      rfl
    | some request =>
      rw [heard_request blank utf8 reads]
      rfl
  refine ⟨h.plain, h.some_, judge (isText_line h.utf8) h.delimited, ?_⟩
  rw [judge h.utf8 h.readAs]

end daemon

section samples
attribute [local instance] Host.ascii

def pong : Reply := { id := 7, ok := true }

/-- A newer daemon's reply, with a field of its own. -/
def newerPong : Fields := [("elapsed", .decimal "0.25")] ++ serialized (Reply.fields pong)

def helloEvent : FullEvent :=
  { toEvent := { Event.new .text with text := "hi", seq := 0 }, at_ := "noon" }

def helloSnapshot : Snapshot :=
  { session := "s", status := "working", ask := Ask.default, providers := ["claude-code"]
    provider := "claude-code", model := "opus", effort := "", cwd := "/", seq := 0, inTurn := true
    queued := 0 }

def hello : Frame := Frame.event_ "s" helloEvent helloSnapshot

/-- A newer daemon's frame: its event and its snapshot say more, and come first. -/
def newerHello : Fields :=
  [("snapshot", .object ([("mood", .string "calm")] ++ serialized helloSnapshot.fields)),
    ("event", .object ([("lang", .string "en")] ++ serialized helloEvent.fields)),
    ("session", .string "s"), ("stream", .string "event")]

/-- The end of its turn, as today's daemon writes it. -/
def finale : Frame :=
  Frame.event_ "s" { toEvent := { Event.new .end_ with seq := 1, turn := 0 } } helloSnapshot

def daemonJson : Serde :=
  Serde.ascii [.object newerPong, .object newerHello, .object (serialized finale.fields)]

def daemonSaid : List (Bytes × Option Incoming) :=
  [(daemonJson.print (.object newerPong), some (.reply pong)), ([120], none),
    (daemonJson.print (.object newerHello), some (.frame hello)),
    (daemonJson.print (.object (serialized finale.fields)), some (.frame finale))]

theorem pong_sent : (Incoming.reply pong).Sent newerPong where
  carries := carries_beside (Reply.fields_once pong) (by decide)
  id := by decide
  apart := by decide

theorem hello_sent : (Incoming.frame hello).Sent newerHello where
  carries := by
    intro field hfield
    simp only [Frame.fields, hello, Frame.event_, optionField, List.mem_filter, List.mem_cons,
      List.not_mem_nil, or_false] at hfield
    obtain ⟨rfl | rfl | rfl | rfl, hkey⟩ := hfield
    · rfl
    · rfl
    · simp at hkey
    · simp at hkey
  event := by
    refine ⟨_, rfl, carries_beside helloEvent.fields_once (by decide), ?_⟩
    exact ⟨⟨rfl, rfl⟩, by decide, by decide, by decide⟩
  snapshot := by
    have carries : Carries ([("mood", .string "calm")] ++ serialized helloSnapshot.fields)
        helloSnapshot.fields := carries_beside helloSnapshot.fields_once (by decide)
    refine ⟨_, rfl, fun field mem => carries field (List.mem_of_mem_filter mem), ?_, rfl,
      by decide, by decide⟩
    exact ⟨_, rfl, carries_serialized (askFields_once _)⟩

theorem finale_sent : (Incoming.frame finale).Sent (serialized finale.fields) := by
  refine Frame.sent_serialized ?_ ?_
  · rintro e ⟨⟩
    exact FullEvent.sent_serialized ⟨⟨rfl, rfl⟩, by decide, by decide, by decide⟩
  · rintro s ⟨⟩
    exact Snapshot.sent_serialized rfl (by decide) (by decide)

theorem daemonJson_faithful :
    ∀ value ∈ [Value.object newerPong, .object newerHello, .object (serialized finale.fields)],
      daemonJson.Faithful value := by
  intro value hvalue
  have some_ : Ascii.print value ≠ [] := by
    revert value
    decide
  exact Serde.ascii_faithful hvalue (by decide +kernel) (by decide +kernel) some_

theorem daemonSaid_spoken : ∀ line ∈ daemonSaid, Spoken daemonJson incomings line.1 line.2 := by
  intro line hline
  simp only [daemonSaid, List.mem_cons, List.not_mem_nil, or_false] at hline
  rcases hline with rfl | rfl | rfl | rfl
  · exact .message (daemonJson_faithful _ (by simp)) (by decide) (by decide)
      pong_sent
  · refine .other (by decide) (by decide) (by decide) ?_ (by decide)
    intro piece hpiece
    rcases List.prefix_cons_iff.mp hpiece with rfl | ⟨rest, rfl, hrest⟩
    · decide
    · rw [List.prefix_nil.mp hrest]
      decide
  · exact .message (daemonJson_faithful _ (by simp)) (by decide +kernel) (by decide +kernel)
      hello_sent
  · exact .message (daemonJson_faithful _ (by simp)) (by decide +kernel) (by decide +kernel)
      finale_sent

/-- The connection breaks in the middle of the frame. -/
theorem heard_as_said_cut :
    readDaemon daemonJson true ((stream daemonSaid).take 60) = [.reply pong] ∧
      readDaemon daemonJson true (stream daemonSaid) = [.reply pong, .frame hello, .frame finale] := by
  have hheard := heard_as_said daemonSaid_spoken true 60
  exact ⟨hheard.1.trans (by decide +kernel), hheard.2⟩

def leaving : Request := { id := 2, op := "shutdown" }

end samples
end SiliconOmni.Wire
