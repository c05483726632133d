import SiliconOmni.Event

/-! Omni history as the text a provider that was not there can be handed. -/
namespace SiliconOmni

def SEED_HEADER : String :=
  "Earlier in this conversation (carried over from another model, shown as a transcript — " ++
  "do not re-run anything in it):"

inductive Role where
  | user | assistant
  deriving DecidableEq, Repr

def Role.upper : Role → String
  | .user => "USER"
  | .assistant => "ASSISTANT"

/-- One turn of history as a role and the text that goes with it. -/
structure Turn where
  role : Role
  text : String
  deriving DecidableEq, Repr

section
variable [Host]

/-- A value as text; `quote` keeps a string quoted, the way an argument reads. -/
def readable (value : Value) (quote : Bool) : String :=
  match value with
  | .string text => if quote then Host.json value else Host.trim text
  | .null => ""
  | other => Host.json other

/-- One history event as the text a foreign provider should read. -/
def render (event : Event) : String :=
  match event.eventType with
  | .start | .injected | .text => event.text
  | .toolCall =>
      let body := match event.args with
        | [(_, value)] => readable value true
        | args => readable (.object args) false
      s!"[{event.tool}: {body}]"
  | .toolResult =>
      let tool := if event.tool = "" then "tool" else event.tool
      let status := if event.ok then "" else " failed"
      s!"[{tool} result{status}: {readable event.result false}]"
  | _ => ""

def roleOf (event : Event) : Role :=
  match event.eventType with
  | .start | .injected => .user
  | _ => .assistant

/-- One more event merged into the turns built so far, newest last. -/
def transcriptStep (out : List Turn) (event : Event) : List Turn :=
  let text := render event
  if text = "" then out
  else match out.getLast? with
    | some last =>
        if last.role = roleOf event then
          out.dropLast ++ [{ last with text := last.text ++ "\n" ++ text }]
        else out ++ [⟨roleOf event, text⟩]
    | none => out ++ [⟨roleOf event, text⟩]

/-- History as merged turns, ready to seed. -/
def transcript (events : List Event) : List Turn := events.foldl transcriptStep []

/-- History as one message, for providers that accept nothing else. -/
def flatten (events : List Event) (header : String) : String :=
  let turns := transcript events
  if turns.isEmpty then ""
  else
    let body := "\n\n".intercalate (turns.map fun turn => s!"{turn.role.upper}: {turn.text}")
    s!"{header}\n\n{body}"

end
end SiliconOmni
