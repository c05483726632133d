import SiliconOmni.Chat.Endings
import SiliconOmni.Chat.Tending

/-! Settings: what the daemon accepts, how each is kept on disk, and what a cold reopening reads
back. -/
namespace SiliconOmni
open Lib Frame

namespace Daemon
variable [Host]

/-- What the JSON library says of a value that is not what a setting takes. -/
structure Misread where
  ask : Value → String
  texts : Value → String

def strings (value : Value) : Except String (List String) :=
  match value.asStrings with
  | some names => .ok names
  | none => .error "that takes a list of names"

def textOf : Value → Except String String
  | .string text => .ok text
  | other =>
      let printed := Host.json other
      .error s!"that takes text, not {printed}"

def flag (value : Value) : Except String Bool :=
  match value.asBool with
  | some on => .ok on
  | none => .error "that takes true or false"

/-- One setting, three shapes; a bare number is the dial. -/
def askOf (misread : Misread) (value : Value) : Except String Ask :=
  match value.asI64 with
  | some number => .ok (.intelligence number none)
  | none => match Ask.ofValue value with
    | some ask => .ok ask
    | none =>
        let why := misread.ask value
        .error s!"model takes a number, a key, or a model: {why}"

def textsOf (misread : Misread) (value : Value) : Except String ContextRecovery :=
  if value.asObject.isNone then .error "context_recovery takes an object of recovery texts"
  else match ContextRecovery.ofValue value with
    | some texts => .ok texts
    | none =>
        let why := misread.texts value
        .error s!"context_recovery takes an object of recovery texts: {why}"

/-- The change a client asks for. -/
def changeFrom (misread : Misread) (what : String) (value : Value) : Except String Change :=
  match what with
  | "providers" => (strings value).map .providers
  | "model" | "intelligence" => (askOf misread value).map .model
  | "system_prompt" => (textOf value).map .systemPrompt
  | "append_system_prompt" => (textOf value).map .appendSystemPrompt
  | "context_recovery" => (textsOf misread value).map .contextRecovery
  | "subagents" => (flag value).map .subagents
  | "mcp" => (flag value).map .mcp
  | "autoremove" => (flag value).map .autoremove
  | "cwd" => (textOf value).map .cwd
  | other =>
      let other := Host.json (.string other)
      .error s!"nothing called {other} can be set"

end Daemon

section codecs

@[simp] theorem Ask.toValue_asI64 (ask : Ask) : ask.toValue.asI64 = none := by
  cases ask <;> rfl

@[simp] theorem Ask.toValue_isNull (ask : Ask) : ask.toValue.isNull = false := by
  cases ask <;> rfl

@[simp] theorem ContextRecovery.ofValue_toValue (texts : ContextRecovery) :
    ContextRecovery.ofValue texts.toValue = some texts := rfl

end codecs

/-- What a session is told to run with. -/
structure Setup where
  providers : List String
  ask : Ask
  config : Config
  autoremove : Bool
  contextRecovery : ContextRecovery
  deriving DecidableEq

def Chat.setup (c : Chat) : Setup where
  providers := c.providers
  ask := c.ask
  config := c.config
  autoremove := c.autoremove
  contextRecovery := c.contextRecovery

/-- Each setting under its key, as it is kept on disk. -/
def Setup.fields (setup : Setup) : Fields :=
  [("active_providers", .array (setup.providers.map .string)),
    ("ask", setup.ask.toValue),
    ("system_prompt", .string setup.config.systemPrompt),
    ("append_system_prompt", .string setup.config.appendSystemPrompt),
    ("subagents", .bool !setup.config.disableSubagents),
    ("mcp", .bool !setup.config.disableMcp),
    ("autoremove", .bool setup.autoremove),
    ("cwd", .string setup.config.cwd),
    ("context_recovery", setup.contextRecovery.toValue)]

theorem Chat.settings_eq (c : Chat) : c.settings = c.setup.fields := rfl

/-- Every setup has the same keys. -/
theorem Setup.lookup_none (a b : Setup) (key : String) (h : a.fields.lookup key = none) :
    b.fields.lookup key = none := by
  rw [List.lookup_eq_none_iff] at h ⊢
  intro entry member
  have keys : b.fields.map Prod.fst = a.fields.map Prod.fst := rfl
  have named : entry.1 ∈ a.fields.map Prod.fst := keys ▸ List.mem_map_of_mem member
  obtain ⟨twin, there, heq⟩ := List.mem_map.mp named
  rw [← heq]
  exact h twin there

/-- The entries say everything about a setup, but for what the conductor never sets. -/
theorem Setup.eq_of_fields {a b : Setup}
    (same : ∀ key, a.fields.lookup key = b.fields.lookup key)
    (unset : a.config.model = b.config.model ∧ a.config.effort = b.config.effort ∧
      a.config.fast = b.config.fast) : a = b := by
  have strings {x y : String} (h : some (Value.string x) = some (.string y)) : x = y :=
    Value.string.inj (Option.some.inj h)
  have flags {x y : Bool} (h : some (Value.bool x) = some (.bool y)) : x = y :=
    Value.bool.inj (Option.some.inj h)
  have providers : a.providers = b.providers := by
    have read := congrArg (·.bind Value.asStrings) (same "active_providers")
    exact Option.some.inj ((Value.asStrings_strings _).symm.trans
      (read.trans (Value.asStrings_strings _)))
  have ask : a.ask = b.ask := by
    have read := congrArg (·.bind Ask.ofValue) (same "ask")
    exact Option.some.inj ((Ask.ofValue_toValue _).symm.trans (read.trans (Ask.ofValue_toValue _)))
  have texts : a.contextRecovery = b.contextRecovery :=
    Option.some.inj (congrArg (·.bind ContextRecovery.ofValue) (same "context_recovery"))
  have systemPrompt : a.config.systemPrompt = b.config.systemPrompt :=
    strings (same "system_prompt")
  have appendSystemPrompt : a.config.appendSystemPrompt = b.config.appendSystemPrompt :=
    strings (same "append_system_prompt")
  have subagents : (!a.config.disableSubagents) = !b.config.disableSubagents :=
    flags (same "subagents")
  have mcp : (!a.config.disableMcp) = !b.config.disableMcp := flags (same "mcp")
  have autoremove : a.autoremove = b.autoremove := flags (same "autoremove")
  have cwd : a.config.cwd = b.config.cwd := strings (same "cwd")
  obtain ⟨model, effort, fast⟩ := unset
  have config : a.config = b.config := by
    cases ha : a.config
    cases hb : b.config
    simp_all
  cases a
  cases b
  simp_all

section restoring
variable [Host]

/-- The directory a session is opened in when it has none pinned. -/
def offered (openingCwd : Option String) : String :=
  (openingCwd.filter (· ≠ "")).getD Host.here

/-- Every setting on disk is one that some setup has. -/
def Legible (settings : Fields) : Prop :=
  ∀ key value, settings.lookup key = some value →
    ∃ setup : Setup, Host.real setup.config.cwd = setup.config.cwd ∧
      setup.fields.lookup key = some value

/-- The disk has the settings the chat has; of the directory it may say only that there is
none. -/
structure Pinned (c : Chat) : Prop where
  legible : Legible c.meta_.data.settings
  stored : ∀ key value, key ≠ "cwd" → c.setup.fields.lookup key = some value →
    c.meta_.data.settings.lookup key = some value
  cwd : c.meta_.data.settings.lookup "cwd" = some (.string c.config.cwd) ∨
    c.meta_.data.settings.lookup "cwd" = some (.string "")
  resolved : Host.real c.config.cwd = c.config.cwd
  blank : c.config.model = "" ∧ c.config.effort = "" ∧ c.config.fast = false

omit [Host] in
/-- A setting that is on disk and not null is read back as it is. -/
theorem MetaData.setting_of_lookup {data : MetaData} {key : String} {value : Value}
    (stored : data.settings.lookup key = some value) (given : value.isNull = false) :
    data.setting key = some value := by
  unfold MetaData.setting
  rw [stored, Option.filter_some, given]
  rfl

variable {c : Chat} {setup : Setup} {key : String} {value : Value} (providers : List String)
  (openingCwd : Option String)

/-- Everything but the directory is read back as it was kept. -/
theorem restored_lookup (known : setup.fields.lookup key = some value) (other : key ≠ "cwd")
    (stored : c.meta_.data.settings.lookup key = some value) :
    (c.restoreSettings providers openingCwd).setup.fields.lookup key = some value := by
  have member : (key, value) ∈ setup.fields := by
    obtain ⟨before, after, split_, -⟩ := List.lookup_eq_some_iff.mp known
    rw [split_]
    exact List.mem_append_right _ List.mem_cons_self
  simp only [Setup.fields, List.mem_cons, Prod.mk.injEq, List.not_mem_nil, or_false] at member
  rcases member with ⟨rfl, rfl⟩ | ⟨rfl, rfl⟩ | ⟨rfl, rfl⟩ | ⟨rfl, rfl⟩ | ⟨rfl, rfl⟩ | ⟨rfl, rfl⟩ |
    ⟨rfl, rfl⟩ | ⟨rfl, rfl⟩ | ⟨rfl, rfl⟩
  · have read := MetaData.setting_of_lookup stored rfl
    simp [Setup.fields, Chat.setup, Chat.restoreSettings, read]
  · have read := MetaData.setting_of_lookup stored setup.ask.toValue_isNull
    simp [Setup.fields, List.lookup_cons, Chat.setup, Chat.restoreSettings, Chat.storedAsk, read]
  · have read := MetaData.setting_of_lookup stored rfl
    simp [Setup.fields, List.lookup_cons, Chat.setup, Chat.restoreSettings, read, Value.asStr]
  · have read := MetaData.setting_of_lookup stored rfl
    simp [Setup.fields, List.lookup_cons, Chat.setup, Chat.restoreSettings, read, Value.asStr]
  · have read := MetaData.setting_of_lookup stored rfl
    simp [Setup.fields, List.lookup_cons, Chat.setup, Chat.restoreSettings, read, Value.asBool]
  · have read := MetaData.setting_of_lookup stored rfl
    simp [Setup.fields, List.lookup_cons, Chat.setup, Chat.restoreSettings, read, Value.asBool]
  · have read := MetaData.setting_of_lookup stored rfl
    simp [Setup.fields, List.lookup_cons, Chat.setup, Chat.restoreSettings, read, Value.asBool]
  · exact absurd rfl other
  · have read := MetaData.setting_of_lookup stored rfl
    simp [Setup.fields, List.lookup_cons, Chat.setup, Chat.restoreSettings, read]

/-- A directory is read back resolved; an empty one is no directory. -/
theorem restored_cwd {path : String}
    (stored : c.meta_.data.settings.lookup "cwd" = some (.string path)) :
    (c.restoreSettings providers openingCwd).config.cwd =
      Host.real (if path = "" then offered openingCwd else path) := by
  have read := MetaData.setting_of_lookup stored rfl
  by_cases empty : path = ""
  · simp only [Chat.restoreSettings, Chat.storedCwd, read, Config.at, Option.bind_some, Value.asStr,
      Option.some_or, empty, offered, ↓reduceIte]
    cases openingCwd.filter (· ≠ "") <;> rfl
  · simp [Chat.restoreSettings, Chat.storedCwd, read, Config.at, Value.asStr, empty,
      Option.filter_some]

omit [Host] in
/-- Pinning fills only what was never pinned. -/
theorem lookup_initializeSettings (data : MetaData) (defaults : Fields) (key : String) :
    (data.initializeSettings defaults).settings.lookup key =
      (data.settings.lookup key).or (defaults.lookup key) := by
  unfold MetaData.initializeSettings
  dsimp only
  generalize data.settings = settings
  induction defaults generalizing settings with
  | nil => simp
  | cons entry rest ih =>
    obtain ⟨name, value⟩ := entry
    rw [List.foldl_cons, ih]
    by_cases same : key = name
    · subst same
      cases pinned : settings.lookup key with
      | none => simp
      | some old =>
        rw [Option.isSome_some, if_pos rfl, pinned]
        rfl
    · have apart : (key == name) = false := beq_false_of_ne same
      rw [List.lookup_cons, apart]
      dsimp only
      split
      · rfl
      · rw [Entries.lookup_insert_ne _ _ same]

/-- The part of a chat that its settings are read from, kept in, and spoilt by. -/
def Chat.told (c : Chat) : Setup × Fields := (c.setup, c.meta_.data.settings)

theorem Pinned.same {d : Chat} (h : Pinned c) (told : d.told = c.told) : Pinned d := by
  simp only [Chat.told, Prod.mk.injEq] at told
  obtain ⟨setup, settings⟩ := told
  have config : d.config = c.config := congrArg Setup.config setup
  refine ⟨settings ▸ h.legible, ?_, ?_, config ▸ h.resolved, config ▸ h.blank⟩
  · rw [setup, settings]
    exact h.stored
  · rw [config, settings]
    exact h.cwd

variable (idempotent : ∀ path : String, Host.real (Host.real path) = Host.real path)
include idempotent

theorem restored_resolved :
    Host.real (c.restoreSettings providers openingCwd).config.cwd =
      (c.restoreSettings providers openingCwd).config.cwd :=
  idempotent _

omit idempotent in
/-- What was legible stays so once a setup's own entries are added. -/
theorem Legible.initialized {data : MetaData} (h : Legible data.settings)
    (resolved : Host.real setup.config.cwd = setup.config.cwd) :
    Legible (data.initializeSettings setup.fields).settings := by
  intro key value stored
  rw [lookup_initializeSettings] at stored
  cases old : data.settings.lookup key with
  | none =>
    rw [old, Option.none_or] at stored
    exact ⟨setup, resolved, stored⟩
  | some kept =>
    rw [old, Option.some_or] at stored
    exact h key value (old.trans stored)

/-- A session just opened has what it pinned. -/
theorem pinned_restored {t : Chat} (h : Legible c.meta_.data.settings)
    (same : t.setup = (c.restoreSettings providers openingCwd).setup)
    (settings : t.meta_.data.settings = (c.meta_.data.initializeSettings t.setup.fields).settings) :
    Pinned t := by
  have resolved : Host.real t.config.cwd = t.config.cwd := by
    have cwd : t.config.cwd = (c.restoreSettings providers openingCwd).config.cwd :=
      congrArg (·.config.cwd) same
    rw [cwd]
    exact restored_resolved providers openingCwd idempotent
  have blank : t.config = { Config.default with
      systemPrompt := t.config.systemPrompt, appendSystemPrompt := t.config.appendSystemPrompt
      disableSubagents := t.config.disableSubagents, disableMcp := t.config.disableMcp
      cwd := t.config.cwd } := by
    have config : t.config = _ := congrArg Setup.config same
    rw [config]
    rfl
  refine ⟨settings ▸ h.initialized resolved, ?_, ?_, resolved, ?_⟩
  · intro key value other given
    rw [settings, lookup_initializeSettings]
    cases old : c.meta_.data.settings.lookup key with
    | none => exact given
    | some kept =>
      obtain ⟨setup, -, known⟩ := h key kept old
      have read := restored_lookup providers openingCwd known other old
      rw [← same] at read
      exact read.symm.trans given
  · rw [settings, lookup_initializeSettings]
    cases old : c.meta_.data.settings.lookup "cwd" with
    | none => exact .inl rfl
    | some kept =>
      obtain ⟨setup, resolved, known⟩ := h "cwd" kept old
      obtain rfl : .string setup.config.cwd = kept := Option.some.inj known
      have read := restored_cwd providers openingCwd old
      have cwd : t.config.cwd = (c.restoreSettings providers openingCwd).config.cwd :=
        congrArg (·.config.cwd) same
      by_cases empty : setup.config.cwd = ""
      · exact .inr (by rw [empty]; rfl)
      · rw [if_neg empty, resolved] at read
        exact .inl (by rw [Option.some_or, cwd, read])
  · rw [blank]
    exact ⟨rfl, rfl, rfl⟩

omit idempotent in
/-- What the disk has is what a reopening reads back, but for a directory that it does not
have. -/
theorem Pinned.restored {d : Chat} (h : Pinned c)
    (settings : d.meta_.data.settings = c.meta_.data.settings) :
    (d.restoreSettings providers openingCwd).setup = c.setup ↔
      c.meta_.data.settings.lookup "cwd" ≠ some (.string "") ∨
        Host.real (offered openingCwd) = c.config.cwd := by
  constructor
  · intro same
    by_cases empty : c.meta_.data.settings.lookup "cwd" = some (.string "")
    · right
      have read := restored_cwd providers openingCwd (settings ▸ empty)
      rw [if_pos rfl] at read
      rw [← read]
      exact congrArg (·.config.cwd) same
    · exact .inl empty
  · intro found
    have cwd : (d.restoreSettings providers openingCwd).config.cwd = c.config.cwd := by
      rcases h.cwd with stored | stored
      · have read := restored_cwd providers openingCwd (settings ▸ stored)
        rw [read]
        by_cases empty : c.config.cwd = ""
        · rw [if_pos empty]
          exact found.resolve_left fun other => other (by rw [stored, empty])
        · rw [if_neg empty, h.resolved]
      · have read := restored_cwd providers openingCwd (settings ▸ stored)
        rw [read, if_pos rfl]
        exact found.resolve_left fun other => other stored
    refine Setup.eq_of_fields (fun key => ?_) ?_
    · by_cases other : key = "cwd"
      · subst other
        exact congrArg (fun cwd => some (Value.string cwd)) cwd
      · cases given : c.setup.fields.lookup key with
        | none => exact Setup.lookup_none _ _ key given
        | some value =>
          have stored := h.stored key value other given
          exact restored_lookup providers openingCwd given other (settings ▸ stored)
    · obtain ⟨model, effort, fast⟩ := h.blank
      exact ⟨model.symm, effort.symm, fast.symm⟩

end restoring

section opening
variable [Host] {s : Conf} {providers : List String} {openingCwd : Option String}

/-- `t` has the settings that `read` found on disk, and has pinned them. -/
structure Reread (read t : Chat) : Prop where
  clean : t.startupError = none
  running : t.stopping = false
  setup : t.setup = read.setup
  settings : t.meta_.data.settings = (read.meta_.data.initializeSettings read.settings).settings

/-- `t` failed or died while opening. -/
structure Unopened (read t : Chat) : Prop where
  ended : t.stopping = true → t.startupError ≠ none
  settings : t.meta_.data.settings = read.meta_.data.settings ∨
    t.meta_.data.settings = (read.meta_.data.initializeSettings read.settings).settings

/-- Settings are read back, and pinned where they were not. -/
theorem wp_openSettings_told (running : s.chat.stopping = false)
    (loaded : s.chat.meta_.loadError = none) :
    wp (do openSettings providers openingCwd; begin_)
      (fun _ t => Reread (s.chat.restoreSettings providers openingCwd) t.chat)
      (fun _ t => Unopened (s.chat.restoreSettings providers openingCwd) t.chat) s := by
  obtain ⟨unset, same, meta_⟩ := s.chat.restoreSettings_keeps providers openingCwd
  have still : (s.chat.restoreSettings providers openingCwd).stopping = false :=
    (congrArg Chat.stopping unset).trans running
  unfold openSettings
  simp only [wp_bind, wp_self, wp_change]
  generalize s.chat.restoreSettings providers openingCwd = read at same meta_ still ⊢
  have failing {t : Conf} {error : String} (failed : t.chat.startupError = some error)
      (settings : t.chat.meta_.data.settings = read.meta_.data.settings) :
      wp begin_ (fun _ u => Reread read u.chat) (fun _ u => Unopened read u.chat) t := by
    unfold begin_
    simp only [wp_bind, wp_self, failed, wp_persistenceFailed]
    refine ⟨fun _ none_ => ?_, .inl settings⟩
    cases failed.symm.trans none_
  have starting {t : Conf} (h : Reread read t.chat) :
      wp begin_ (fun _ u => Reread read u.chat) (fun _ u => Unopened read u.chat) t := by
    unfold begin_
    simp only [wp_bind, wp_self, h.clean, wp_become]
    exact ⟨h.clean, h.running, h.setup, h.settings⟩
  cases clean : s.chat.startupError with
  | some error =>
    have failed := same.trans clean
    refine wp_openCommit_failed failed ?_
    rw [wp_change]
    refine failing (?_ : _ = some error) ?_ <;> dsimp only [Chat.opened]
    exact failed
  | none =>
    refine wp_openCommit_clean (same.trans clean) ((congrArg Meta.loadError meta_).trans loaded)
      ?_ ?_ ?_
    · intro calls
      rw [wp_change]
      refine starting ⟨?_, ?_, ?_, ?_⟩ <;> dsimp only [Chat.opened, Conf.edited, Chat.setup]
      · exact same.trans clean
      · exact still
    · intro calls error _
      rw [wp_change]
      refine failing (?_ : _ = some error) ?_ <;> dsimp only [Chat.opened]
    · intro calls _
      refine ⟨?_, .inr ?_⟩ <;> dsimp only [Conf.edited]
      intro stopping
      cases still.symm.trans stopping

variable {past : Conf} (sound : past.books.Sound)
include sound

/-- The same of opening a session from sound files. -/
theorem wp_openFrom_told (providers : List String) (openingCwd : Option String) (env : Env) :
    wp (do openAt providers openingCwd; begin_)
      (fun _ t => ∃ c : Chat, c.meta_.data.settings = past.chat.meta_.data.settings ∧
        Reread (c.restoreSettings providers openingCwd) t.chat)
      (fun _ t => ∃ c : Chat, c.meta_.data.settings = past.chat.meta_.data.settings ∧
        Unopened (c.restoreSettings providers openingCwd) t.chat)
      { past with env, calls := 0, chat := Chat.loaded past.chat.sessionId past.chat.disk } := by
  rw [loaded_eq sound]
  have settled {s : Conf} (running : s.chat.stopping = false)
      (loaded : s.chat.meta_.loadError = none)
      (settings : s.chat.meta_.data.settings = past.chat.meta_.data.settings) :
      wp (do openSettings providers openingCwd; begin_)
        (fun _ t => ∃ c : Chat, c.meta_.data.settings = past.chat.meta_.data.settings ∧
          Reread (c.restoreSettings providers openingCwd) t.chat)
        (fun _ t => ∃ c : Chat, c.meta_.data.settings = past.chat.meta_.data.settings ∧
          Unopened (c.restoreSettings providers openingCwd) t.chat) s :=
    wp_mono (wp_openSettings_told running loaded) (fun _ _ ht => ⟨s.chat, settings, ht⟩)
      fun _ _ ht => ⟨s.chat, settings, ht⟩
  unfold openAt openFiles
  simp only [wp_bind, wp_self, wp_change] at settled ⊢
  rw [restoreRecovery_sound sound (c := past.reloaded) rfl rfl rfl rfl]
  refine wp_openCommit_clean rfl rfl ?_ ?_ ?_
  · exact fun _ => settled rfl rfl rfl
  · exact fun _ _ _ => settled rfl rfl rfl
  · exact fun _ _ => ⟨past.chat, rfl, by rintro ⟨⟩, .inl rfl⟩

theorem reread_of_opening {t : Conf} {providers : List String} {openingCwd : Option String}
    {env : Env} (reopened : System.opening past.chat.sessionId past.chat.disk past providers
      openingCwd env = { conf := t }) :
    ∃ c : Chat, c.meta_.data.settings = past.chat.meta_.data.settings ∧
      Reread (c.restoreSettings providers openingCwd) t.chat := by
  have read := wp_openFrom_told sound providers openingCwd env
  unfold System.opening at reopened
  unfold wp at read
  split at read
  next u hm =>
    dsimp only at reopened
    rw [hm] at reopened
    cases reopened
    exact read
  next u hm =>
    dsimp only at reopened
    rw [hm] at reopened
    cases reopened

theorem unopened_of_opening {t : Conf} {providers : List String} {openingCwd : Option String}
    {env : Env} (reopened : System.opening past.chat.sessionId past.chat.disk past providers
      openingCwd env = { conf := t, ended := true }) :
    ∃ c : Chat, c.meta_.data.settings = past.chat.meta_.data.settings ∧
      Unopened (c.restoreSettings providers openingCwd) t.chat := by
  have read := wp_openFrom_told sound providers openingCwd env
  unfold System.opening at reopened
  unfold wp at read
  split at read
  next u hm =>
    dsimp only at reopened
    rw [hm] at reopened
    cases reopened
  next u hm =>
    dsimp only at reopened
    rw [hm] at reopened
    cases reopened
    exact read

end opening

/-- Steps that leave the settings alone. -/
def sparing : Frame Conf where
  live s t := t.chat.told = s.chat.told ∧ t.chat.stopping = s.chat.stopping
  halted s t := t.chat.told = s.chat.told
  refl _ := ⟨rfl, rfl⟩
  trans h h' := ⟨h'.1.trans h.1, h'.2.trans h.2⟩
  trans_halted h h' := h'.trans h.1

section sparing
variable {α : Type} {s t : Conf}

theorem change_spares {f : Chat → Chat} (told : ∀ c, (f c).told = c.told)
    (stopping : ∀ c, (f c).stopping = c.stopping) : sparing.Holds (change f) :=
  fun s => ⟨told s.chat, stopping s.chat⟩

theorem asks_spares (question : Env → ℕ → α) : sparing.Holds (asks question) :=
  fun _ => ⟨rfl, rfl⟩

theorem persistenceFailed_spares (action error : String) :
    sparing.Holds (persistenceFailed action error : Conductor α) := fun _ => rfl

theorem tryCommit_spares {edit : MetaData → MetaData}
    (keeps : ∀ data, (edit data).settings = data.settings) : sparing.Holds (tryCommit edit) := by
  intro s
  have told : ({ s.chat with meta_.data := edit s.chat.meta_.data } : Chat).told = s.chat.told :=
    congrArg (s.chat.setup, ·) (keeps s.chat.meta_.data)
  unfold tryCommit
  rw [wp_bind, wp_self]
  split
  · exact ⟨rfl, rfl⟩
  · refine (wp_ite _ _).mpr ⟨fun _ => ⟨rfl, rfl⟩, fun _ => ?_⟩
    rw [wp_bind, wp_asks]
    split
    · exact ⟨told, rfl⟩
    · exact ⟨rfl, rfl⟩
    · exact told

theorem commit_spares {action : String} {edit : MetaData → MetaData}
    (keeps : ∀ data, (edit data).settings = data.settings) : sparing.Holds (commit action edit) := by
  unfold commit
  refine holds_bind (tryCommit_spares keeps) fun answer => ?_
  split
  · exact holds_pure _
  · exact persistenceFailed_spares _ _

theorem record_spares (event : Event) : sparing.Holds (record event) := by
  intro s
  unfold record
  simp only [wp_bind, wp_self]
  split
  · exact rfl
  · simp only [wp_bind, wp_asks]
    split
    · exact ⟨rfl, rfl⟩
    · exact rfl
    · exact rfl
    · exact rfl

theorem notes_spares (os : List Obs) : sparing.Holds (notes os) := fun _ => ⟨rfl, rfl⟩

theorem note_spares (o : Obs) : sparing.Holds (note o) := notes_spares [o]

theorem sparing_man {f : Chat → Chat} (same : ∀ c, (f c).unmanned = c.unmanned) :
    sparing.Holds (change f) := by
  have told (c : Chat) : (f c).unmanned.told = c.unmanned.told := congrArg Chat.told (same c)
  have stopping (c : Chat) : (f c).unmanned.stopping = c.unmanned.stopping :=
    congrArg Chat.stopping (same c)
  exact change_spares told stopping

theorem sparing_mans : Mans sparing where
  asks := asks_spares
  notes _ _ := ⟨rfl, rfl⟩
  change same _ := sparing_man same
  man := sparing_man
  settle _ := change_spares (fun _ => rfl) fun _ => rfl
  tryCommit natives := tryCommit_spares natives.settings
  halt := persistenceFailed_spares
  record _ _ := record_spares _
  build _ := ⟨rfl, rfl⟩
  remember := change_spares (fun _ => rfl) fun _ => rfl
  number _ := change_spares (fun _ => rfl) fun _ => rfl

theorem sparing_tend {f : Chat → Chat} (same : ∀ c, (f c).untended = c.untended) :
    sparing.Holds (change f) := by
  have told (c : Chat) : (f c).untended.told = c.untended.told := congrArg Chat.told (same c)
  have stopping (c : Chat) : (f c).untended.stopping = c.untended.stopping :=
    congrArg Chat.stopping (same c)
  exact change_spares told stopping

theorem sparing_tends : Tends sparing where
  admits := sparing_mans.toAdmits
  notes _ _ := ⟨rfl, rfl⟩
  change same _ := sparing_tend same
  commit := commit_spares
  launched := change_spares (fun _ => rfl) fun _ => rfl
  draw _ _ := ⟨rfl, rfl⟩
  publish _ := ⟨rfl, rfl⟩
  record _ _ := record_spares _

theorem deliver_spares : sparing.Holds deliver := by
  unfold deliver
  refine holds_bind Admits.holds_self fun c => ?_
  split
  · refine holds_ite (holds_pure _) (holds_bind (asks_spares _) fun sent => ?_)
    refine holds_bind (note_spares _) fun _ => ?_
    split
    · exact holds_pure _
    · exact holds_bind (sparing_tend fun _ => rfl) fun _ => sparing_tends.busy_holds _
    · refine holds_bind (record_spares _) fun event => holds_bind (notes_spares _) fun _ => ?_
      refine holds_bind (change_spares (fun _ => rfl) fun _ => rfl) fun _ => ?_
      refine holds_bind sparing_mans.remember fun _ => ?_
      refine holds_bind (commit_spares fun _ => rfl) fun _ => ?_
      refine holds_bind (sparing_tend fun _ => rfl) fun _ => holds_bind (sparing_tend fun _ => rfl) fun _ => ?_
      exact sparing_tends.busy_holds _
  · exact holds_pure _

theorem confirm_spares (event : Event) : sparing.Holds (confirm event) := by
  unfold confirm
  refine holds_bind Admits.holds_self fun c => ?_
  split
  · refine holds_ite ?_ (holds_pure _)
    refine holds_bind (record_spares _) fun event => holds_bind (notes_spares _) fun _ => ?_
    refine holds_bind (change_spares (fun _ => rfl) fun _ => rfl) fun _ => ?_
    refine holds_bind sparing_mans.remember fun _ => ?_
    refine holds_bind (commit_spares fun _ => rfl) fun _ => holds_bind (sparing_tend fun _ => rfl) fun _ => ?_
    refine holds_bind (sparing_tend fun _ => rfl) fun _ => holds_bind (sparing_tend fun _ => rfl) fun _ => ?_
    exact sparing_tends.busy_holds _
  · exact holds_pure _

theorem absorb_spares [Host] (epoch : ℕ) (report : Report) : sparing.Holds (absorb epoch report) := by
  unfold absorb
  refine holds_bind Admits.holds_self fun c => ?_
  refine holds_bind (sparing_tends.straggler_holds _) fun late => ?_
  refine holds_bind (sparing_tends.repeated_holds _) fun again => holds_ite (holds_pure _) ?_
  refine holds_ite (holds_ite (holds_pure _) (confirm_spares _)) ?_
  refine holds_bind (record_spares _) fun event => holds_bind Admits.holds_self fun d => ?_
  refine holds_ite ?_ (holds_bind (notes_spares _) fun _ => sparing_tends.react_holds _)
  exact holds_bind (change_spares (fun _ => rfl) fun _ => rfl) fun _ => holds_pure _

/-- The calls that change a setting. -/
def Call.isSetting : Call → Bool
  | .apply _ | .unauthenticated _ => true
  | _ => false

/-- Every other call leaves the settings alone. -/
theorem run_spares [Host] {call : Call} (other : call.isSetting = false) :
    wp (run call) (fun _ t => t.chat.told = s.chat.told ∧
        (t.chat.stopping = s.chat.stopping ∨ call = .shutdown))
      (fun _ t => t.chat.told = s.chat.told) s := by
  have within {call : Call} (h : sparing.Holds (run call)) :
      wp (run call) (fun _ t => t.chat.told = s.chat.told ∧
          (t.chat.stopping = s.chat.stopping ∨ call = .shutdown))
        (fun _ t => t.chat.told = s.chat.told) s :=
    wp_mono (h s) (fun _ _ ht => ⟨ht.1, .inl ht.2⟩) fun _ _ ht => ht
  cases call with
  | deliver => exact within deliver_spares
  | absorb epoch report => exact within (absorb_spares epoch report)
  | apply changes => cases other
  | unauthenticated provider => cases other
  | shutdown =>
    show wp shutdown _ _ s
    unfold shutdown
    rw [wp_bind, wp_change]
    have rest : sparing.Holds (do
        release
        let c ← self
        change fun c => { c with parked := [] }
        stopAll (c.parked.map (·.2.runner))
        return ([] : List Call)) := by
      refine holds_bind sparing_tends.release_holds fun _ => holds_bind Admits.holds_self fun c => ?_
      refine holds_bind (sparing_tend fun _ => rfl) fun _ => ?_
      exact holds_bind (sparing_mans.stopAll_holds _) fun _ => holds_pure _
    exact wp_mono (rest _) (fun _ _ ht => ⟨ht.1, .inr rfl⟩) fun _ _ ht => ht
  | stopped => exact within (sparing_tends.stopped_holds (sparing_man fun _ => rfl))
  | replace rung why next => exact within (sparing_mans.attemptReplace_holds rung why next)
  | _ => exact within (sparing_tends.run_holds rfl)

end sparing

section changing
variable [Host] {s : Conf} {c d : Chat} {key action : String} {value : Value}

/-- One setting, made durable and then current. -/
theorem Pinned.set (h : Pinned c) (fields : d.setup.fields = Entries.insert c.setup.fields key value)
    (settings : d.meta_.data.settings = Entries.insert c.meta_.data.settings key value)
    (resolved : Host.real d.config.cwd = d.config.cwd)
    (blank : d.config.model = "" ∧ d.config.effort = "" ∧ d.config.fast = false) : Pinned d where
  legible := by
    intro name kept stored
    rw [settings] at stored
    by_cases same : name = key
    · subst same
      rw [Entries.lookup_insert_self] at stored
      refine ⟨d.setup, resolved, ?_⟩
      rw [fields, Entries.lookup_insert_self]
      exact stored
    · rw [Entries.lookup_insert_ne _ _ same] at stored
      exact h.legible name kept stored
  stored := by
    intro name kept other given
    rw [fields] at given
    rw [settings]
    by_cases same : name = key
    · subst same
      rw [Entries.lookup_insert_self] at given ⊢
      exact given
    · rw [Entries.lookup_insert_ne _ _ same] at given ⊢
      exact h.stored name kept other given
  cwd := by
    have now : d.setup.fields.lookup "cwd" = some (.string d.config.cwd) := rfl
    rw [fields] at now
    rw [settings]
    by_cases same : "cwd" = key
    · subst same
      rw [Entries.lookup_insert_self] at now ⊢
      exact .inl now
    · have before : c.setup.fields.lookup "cwd" = some (.string c.config.cwd) := rfl
      rw [Entries.lookup_insert_ne _ _ same] at now ⊢
      rw [← now, before]
      exact h.cwd
  resolved := resolved
  blank := blank

/-- A conductor that ended with its settings on disk, or before they were its own. -/
structure Spoilt (t : Conf) : Prop where
  legible : Legible t.chat.meta_.data.settings
  pinned : Pinned t.chat ∨ t.chat.startupError ≠ none ∨ t.chat.stopping = false

theorem Spoilt.of_told {t : Conf} (h : Pinned c) (told : t.chat.told = c.told) : Spoilt t :=
  have pinned := h.same told
  ⟨pinned.legible, .inl pinned⟩

omit [Host] in
/-- A setting is saved, or nothing changed, or the process died with the setting on disk. -/
theorem wp_saveSetting {Q : Unit → Conf → Prop} {H : Halt → Conf → Prop}
    (hdone : ∀ calls, Q () (s.edited calls (·.setSetting key value)))
    (hfailed : ∀ t, t.chat.setup = s.chat.setup → t.chat.meta_ = s.chat.meta_ → H .failed t)
    (hcut : ∀ calls, H .cut (s.edited calls (·.setSetting key value))) :
    wp (saveSetting key value action) Q H s := by
  unfold saveSetting commit tryCommit
  simp only [wp_bind, wp_self]
  split
  · exact hfailed _ rfl rfl
  · refine (wp_ite _ _).mpr ⟨fun same => ?_, fun _ => ?_⟩
    · have unchanged : s.edited s.calls (·.setSetting key value) = s :=
        congrArg (fun data => { s with chat := { s.chat with meta_.data := data } }) same
      have done := hdone s.calls
      rwa [unchanged] at done
    · rw [wp_bind, wp_asks]
      split
      · exact hdone _
      · exact hfailed _ rfl rfl
      · exact hcut _

/-- What leaves the settings alone keeps them on disk. -/
theorem Pinned.spared {α : Type} {m : Conductor α} (h : Pinned s.chat)
    (running : s.chat.stopping = false) (hm : sparing.Holds m) :
    wp m (fun _ t => Pinned t.chat ∧ t.chat.stopping = false) (fun _ t => Spoilt t) s :=
  hm.wp (fun _ _ ht => ⟨h.same ht.1, ht.2.trans running⟩) fun _ _ ht => .of_told h ht

/-- Saving one setting and then making it current keeps both the same. -/
theorem wp_setting {α : Type} {f : Chat → Chat} {m : Conductor α} (h : Pinned s.chat)
    (running : s.chat.stopping = false) (hm : sparing.Holds m)
    (settings : ∀ c, (f c).meta_ = c.meta_) (stopping : ∀ c, (f c).stopping = c.stopping)
    (changed : ∀ c, c.setup = s.chat.setup →
      (f c).setup.fields = Entries.insert c.setup.fields key value ∧
        Host.real (f c).config.cwd = (f c).config.cwd ∧
        (f c).config.model = "" ∧ (f c).config.effort = "" ∧ (f c).config.fast = false) :
    wp (do saveSetting key value action; change f; m)
      (fun _ t => Pinned t.chat ∧ t.chat.stopping = false) (fun _ t => Spoilt t) s := by
  have saved (calls : ℕ) : Pinned (f (s.edited calls (·.setSetting key value)).chat) := by
    obtain ⟨fields, resolved, blank⟩ := changed (s.edited calls (·.setSetting key value)).chat rfl
    exact h.set fields (congrArg (·.data.settings) (settings _)) resolved blank
  rw [wp_bind]
  refine wp_saveSetting ?_ ?_ ?_
  · intro calls
    rw [wp_bind, wp_change]
    exact Pinned.spared (saved calls) ((stopping _).trans running) hm
  · intro t setup meta_
    exact .of_told h (Prod.ext setup (congrArg (·.data.settings) meta_))
  · intro calls
    have legible := (saved calls).legible
    rw [settings] at legible
    exact ⟨legible, .inr (.inr running)⟩

variable (idempotent : ∀ path : String, Host.real (Host.real path) = Host.real path)
include idempotent

theorem applyChange_pinned (setting : Change) (h : Pinned s.chat)
    (running : s.chat.stopping = false) :
    wp (applyChange setting) (fun _ t => Pinned t.chat ∧ t.chat.stopping = false)
      (fun _ t => Spoilt t) s := by
  have config {c : Chat} (same : c.setup = s.chat.setup) : c.config = s.chat.config :=
    congrArg Setup.config same
  have resolved {c : Chat} (same : c.setup = s.chat.setup) :
      Host.real c.config.cwd = c.config.cwd ∧
        c.config.model = "" ∧ c.config.effort = "" ∧ c.config.fast = false :=
    config same ▸ ⟨h.resolved, h.blank⟩
  cases setting with
  | cwd path =>
    unfold applyChange
    rw [wp_bind, wp_self]
    refine wp_setting h running (holds_pure _) (fun _ => rfl) (fun _ => rfl) fun c same =>
      ⟨?_, ?_⟩
    · simp [Setup.fields, Chat.setup, Entries.insert, Config.at, config same]
    · exact ⟨idempotent _, h.blank⟩
  | _ =>
    refine wp_setting h running (holds_pure _) (fun _ => rfl) (fun _ => rfl) fun c same =>
      ⟨?_, ?_⟩
    · simp [Setup.fields, Chat.setup, Entries.insert]
    · have kept := resolved same
      exact kept

theorem apply_pinned (changes : List Change) (h : Pinned s.chat)
    (running : s.chat.stopping = false) :
    wp (apply changes) (fun _ t => Pinned t.chat ∧ t.chat.stopping = false)
      (fun _ t => Spoilt t) s := by
  cases changes with
  | nil => exact ⟨h, running⟩
  | cons setting rest =>
    unfold apply
    rw [wp_bind]
    refine wp_mono (applyChange_pinned idempotent setting h running) (fun what t ht => ?_)
      fun _ _ => id
    refine Pinned.spared ht.1 ht.2 (holds_bind (record_spares _) fun _ => ?_)
    exact holds_bind sparing_mans.refresh_holds fun _ => holds_pure _

omit idempotent in
/-- A provider is removed from the list on disk before it is in memory. -/
theorem unauthenticated_pinned (provider : String) (h : Pinned s.chat)
    (running : s.chat.stopping = false) :
    wp (unauthenticated provider) (fun _ t => Pinned t.chat ∧ t.chat.stopping = false)
      (fun _ t => Spoilt t) s := by
  have dial := sparing_mans.of_unmanned
  unfold unauthenticated
  rw [wp_bind, wp_self, wp_bind]
  refine wp_mono (Pinned.spared h running (sparing_tends.closeTurn_holds _ _ _)) (fun _ t ht => ?_)
    fun _ _ => id
  refine (wp_ite _ _).mpr ⟨fun _ => ht, fun _ => (wp_ite _ _).mpr ⟨fun _ => ht, fun _ => ?_⟩⟩
  refine wp_setting ht.1 ht.2 ?_ (fun _ => rfl) (fun _ => rfl) fun c same => ⟨?_, ?_⟩
  · refine holds_bind (dial.movedOn_holds _ _) fun _ => ?_
    exact holds_bind dial.anyoneLeft_holds fun left => holds_ite (holds_pure _) (holds_pure _)
  · simp [Setup.fields, Chat.setup, Entries.insert]
  · have config : c.config = t.chat.config := congrArg Setup.config same
    show Host.real c.config.cwd = c.config.cwd ∧ _
    rw [config]
    exact ⟨ht.1.resolved, ht.1.blank⟩

end changing

section stopping
variable [Host] {s t : Conf} {call : Call} {calls rest : List Call}

/-- The calls left to a conductor that stops. -/
def Call.drains : Call → Bool
  | .absorb _ _ | .stopped | .publish => true
  | _ => false

/-- Stopping comes first in its wake, and nothing is begun after it. -/
structure Orderly (stopping : Bool) (stack : List Call) : Prop where
  drained : stopping = true → ∀ call ∈ stack, call.drains
  last : ∀ rest, stack = .shutdown :: rest → ∀ call ∈ rest, call.drains
  once : ∀ call ∈ stack.tail, call ≠ .shutdown

omit [Host] in
theorem orderly_of_plain {stack : List Call} (h : ∀ call ∈ stack, call ≠ .shutdown) :
    Orderly false stack where
  drained := by rintro ⟨⟩
  last := fun _ heq => absurd rfl (h .shutdown (heq ▸ List.mem_cons_self))
  once := fun call member => h call (List.mem_of_mem_tail member)

omit [Host] in
theorem wake_orderly (wake : Wake) : Orderly false wake.calls := by
  cases wake with
  | stop drained =>
    let later : List Call :=
      drained.map (fun heard => .absorb heard.1 heard.2) ++ [.stopped, .publish]
    have drains : ∀ call ∈ later, call.drains := by
      intro call member
      rcases List.mem_append.mp member with member | member
      · obtain ⟨event, -, rfl⟩ := List.mem_map.mp member
        rfl
      · simp only [List.mem_cons, List.not_mem_nil, or_false] at member
        rcases member with rfl | rfl <;> rfl
    have split_ : Wake.calls (.stop drained) = .shutdown :: later := rfl
    rw [split_]
    refine ⟨by rintro ⟨⟩, ?_, ?_⟩
    · intro rest heq
      exact (List.cons.inj heq).2 ▸ drains
    · rintro call member rfl
      cases drains _ member
  | _ => exact orderly_of_plain (by simp [Wake.calls])

/-- No call leaves a stop to be made. -/
theorem Ran.spared (ran : Ran s call calls t) (cleared : call.Cleared s.chat) :
    ∀ k ∈ calls, k ≠ .shutdown := by
  have onward {next : List Call} (h : Onward next) : ∀ k ∈ next, k ≠ .shutdown := by
    rcases h with rfl | rfl | rfl <;> simp
  cases ran with
  | moved leads still =>
    cases leads with
    | proceed => exact onward cleared
    | _ => simp
  | replaced calls_eq =>
    rcases calls_eq with rfl | rfl | rfl
    · exact onward cleared.2
    · simp
    · simp
  | reacted _ _ _ reacted _ => cases reacted <;> simp
  | closed _ calls_eq _ => rcases calls_eq with rfl | rfl <;> simp
  | proceeded _ proceeds _ => cases proceeds <;> simp
  | advanced _ advances _ =>
    cases advances with
    | complete _ _ _ calls_eq => rcases calls_eq with rfl | rfl <;> simp
    | _ => simp
  | finished _ _ calls_eq _ => rcases calls_eq with rfl | rfl <;> simp
  | _ => simp

/-- A conductor that stops leaves nothing more to be done. -/
theorem Ran.drained (ran : Ran s call calls t) (stopping : s.chat.stopping = true)
    (drains : call.drains = true) : calls = [] := by
  cases ran with
  | moved leads still => cases leads <;> first | rfl | cases drains
  | reacted _ _ _ reacted _ => exact (reacted.of_stopping stopping).1
  | closed call_eq => rcases call_eq with ⟨_, _, rfl⟩ | ⟨_, rfl⟩ <;> cases drains
  | _ => first | rfl | cases drains

theorem Orderly.next (h : Orderly s.chat.stopping (call :: rest)) (ran : Ran s call calls t)
    (cleared : call.Cleared s.chat) (kept : t.chat.stopping = s.chat.stopping ∨ call = .shutdown) :
    Orderly t.chat.stopping (calls ++ rest) := by
  have spared := ran.spared cleared
  have plain : ∀ k ∈ calls ++ rest, k ≠ .shutdown := by
    intro k member
    rcases List.mem_append.mp member with member | member
    · exact spared k member
    · exact h.once k member
  refine ⟨fun stopping => ?_, fun _ heq => ?_, fun k member => plain k (List.mem_of_mem_tail member)⟩
  · rcases kept with kept | rfl
    · have before := kept.symm.trans stopping
      have drains := h.drained before
      obtain rfl := ran.drained before (drains call List.mem_cons_self)
      exact fun k member => drains k (List.mem_cons_of_mem _ member)
    · have none_ : calls = [] := by
        cases ran with
        | moved leads => cases leads with | pause => rfl
        | closed call_eq => rcases call_eq with ⟨_, _, h⟩ | ⟨_, h⟩ <;> cases h
        | shutting => rfl
      subst none_
      exact h.last rest rfl
  · exact absurd rfl (plain .shutdown (heq ▸ List.mem_cons_self))

end stopping

section runs
variable [Host] {s : System}

/-- A running conductor has its settings on disk, and stops in order. -/
structure Settled (s : Conf) (stack : List Call) : Prop where
  accounted : Accounted s.chat.desk s.books
  pinned : Pinned s.chat
  orderly : Orderly s.chat.stopping stack

theorem Settled.left {s : Conf} {stack : List Call} (h : Settled s stack) :
    s.books.Sound ∧ Spoilt s :=
  ⟨h.accounted.sound, h.pinned.legible, .inl h.pinned⟩

variable (idempotent : ∀ path : String, Host.real (Host.real path) = Host.real path)
include idempotent

theorem settled_opened {past t : Conf} (sound : past.books.Sound)
    (legible : Legible past.chat.meta_.data.settings) (opened : Opened past t) :
    Settled t [] := by
  obtain ⟨providers, cwd, env, reopened⟩ := opened.reopened
  obtain ⟨c, settings, read⟩ := reread_of_opening sound reopened
  have pinned : Pinned t.chat := by
    refine pinned_restored providers cwd idempotent (settings ▸ legible) read.setup ?_
    rw [read.settings, Chat.settings_eq, read.setup]
    rfl
  refine ⟨accounted_opened sound opened, pinned, ?_⟩
  rw [read.running]
  exact orderly_of_plain fun _ member => absurd member List.not_mem_nil

theorem spoilt_openFailed {past t : Conf} (sound : past.books.Sound)
    (legible : Legible past.chat.meta_.data.settings) (failed : OpenFailed past t) :
    Spoilt t := by
  obtain ⟨providers, cwd, env, reopened⟩ := failed.reopened
  obtain ⟨c, settings, left⟩ := unopened_of_opening sound reopened
  have read : (c.restoreSettings providers cwd).meta_.data = c.meta_.data := rfl
  refine ⟨?_, ?_⟩
  · rcases left.settings with kept | pinned
    · rw [kept, read, settings]
      exact legible
    · rw [pinned, read, Chat.settings_eq]
      have before : Legible c.meta_.data.settings := settings ▸ legible
      exact before.initialized (restored_resolved providers cwd idempotent)
  · cases stopping : t.chat.stopping with
    | true => exact .inr (.inl (left.ended stopping))
    | false => exact .inr (.inr rfl)

/-- Every call keeps the settings on disk. -/
theorem run_settled {s : Conf} {call : Call} {rest : List Call} (h : Settled s (call :: rest))
    (cleared : call.Cleared s.chat) :
    wp (run call) (fun calls t => Settled t (calls ++ rest)) (fun _ t => t.books.Sound ∧ Spoilt t)
      s := by
  have pinned : wp (run call)
      (fun _ t => Pinned t.chat ∧ (t.chat.stopping = s.chat.stopping ∨ call = .shutdown))
      (fun _ t => Spoilt t) s := by
    by_cases setting : call.isSetting = true
    · have running : s.chat.stopping = false := by
        by_contra stopping
        have drains := h.orderly.drained (by simpa using stopping) call List.mem_cons_self
        cases call <;> simp_all [Call.isSetting, Call.drains]
      have within {m : Conductor (List Call)}
          (hm : wp m (fun _ t => Pinned t.chat ∧ t.chat.stopping = false) (fun _ t => Spoilt t) s) :
          wp m (fun _ t => Pinned t.chat ∧ (t.chat.stopping = s.chat.stopping ∨ call = .shutdown))
            (fun _ t => Spoilt t) s :=
        wp_mono hm (fun _ _ ht => ⟨ht.1, .inl (ht.2.trans running.symm)⟩) fun _ _ => id
      cases call with
      | apply changes => exact within (apply_pinned idempotent changes h.pinned running)
      | unauthenticated provider => exact within (unauthenticated_pinned provider h.pinned running)
      | _ => cases setting
    · exact wp_mono (run_spares (Bool.eq_false_of_not_eq_true setting))
        (fun _ _ ht => ⟨h.pinned.same ht.1, ht.2⟩) fun _ _ ht => .of_told h.pinned ht
  refine wp_mono (wp_and pinned (run_ran call)) ?_ ?_
  · rintro calls t ⟨⟨kept, stopping⟩, ran⟩
    exact ⟨accounted_ran h.accounted ran, kept, h.orderly.next ran cleared stopping⟩
  · rintro _ t ⟨spoilt, died⟩
    exact ⟨sound_died h.accounted died, spoilt⟩

theorem settings_invariant (ok : System → Move → Prop) :
    System.Invariant ok Settled (fun s => s.books.Sound ∧ Spoilt s) where
  sound := And.left
  blank := by
    refine fun sessionId env => ⟨blank_sound sessionId env, ?_, .inr (.inr rfl)⟩
    intro key value stored
    cases stored
  opened := fun dead opened => settled_opened idempotent dead.1 dead.2.legible opened
  failed := fun dead failed =>
    ⟨sound_openFailed dead.1 failed, spoilt_openFailed idempotent dead.1 dead.2.legible failed⟩
  left := fun h _ => h.left
  ended := fun h _ => h.left
  wake := fun h running _ _ => ⟨h.accounted, h.pinned, running ▸ wake_orderly _⟩
  deadline := fun h running _ =>
    ⟨h.accounted, h.pinned, running ▸ orderly_of_plain (by simp)⟩
  call := by
    intro s call rest reach _ h
    have primed := (((authority_invariant ok).holds reach).live rfl).primed
    exact run_settled idempotent h primed.1
  published := by
    rintro s ⟨sound, spoilt⟩
    exact ⟨sound.mono le_rfl rfl, spoilt.legible, spoilt.pinned.imp_left fun h => h.same rfl⟩

end runs

section failures
variable {conf conf' : Conf} {key action : String} {value : Value}

/-- A setting that could not be saved is what it was, in memory and on disk. -/
theorem saveSetting_failed (h : saveSetting key value action conf = .error .failed conf') :
    conf'.chat.setup = conf.chat.setup ∧ conf'.chat.meta_ = conf.chat.meta_ := by
  have unsaved : wp (saveSetting key value action) (fun _ _ => True)
      (fun e t => e = .failed → t.chat.setup = conf.chat.setup ∧ t.chat.meta_ = conf.chat.meta_)
      conf :=
    wp_saveSetting (fun _ => trivial) (fun _ setup meta_ _ => ⟨setup, meta_⟩) fun _ => (by rintro ⟨⟩)
  unfold wp at unsaved
  rw [h] at unsaved
  exact unsaved rfl

theorem applyChange_failed [Host] {setting : Change}
    (h : applyChange setting conf = .error .failed conf') :
    conf'.chat.setup = conf.chat.setup ∧ conf'.chat.meta_ = conf.chat.meta_ := by
  have saved {key : String} {value : Value} {action : String} {f : Chat → Chat}
      {what : String × Fields} :
      wp (do saveSetting key value action; change f; return what) (fun _ _ => True)
        (fun e t => e = .failed → t.chat.setup = conf.chat.setup ∧ t.chat.meta_ = conf.chat.meta_)
        conf := by
    rw [wp_bind]
    exact wp_saveSetting (fun _ => trivial) (fun _ setup meta_ _ => ⟨setup, meta_⟩) fun _ => (by rintro ⟨⟩)
  have unsaved : wp (applyChange setting) (fun _ _ => True)
      (fun e t => e = .failed → t.chat.setup = conf.chat.setup ∧ t.chat.meta_ = conf.chat.meta_)
      conf := by
    cases setting <;> exact saved
  unfold wp at unsaved
  rw [h] at unsaved
  exact unsaved rfl

end failures

namespace System
variable [Host] {s t : System}

/-- The session was opened, and its conductor was not killed in the middle of a call. -/
structure Whole (s : System) : Prop where
  opened : s.conf.chat.startupError = none
  closed : s.ended = true → s.conf.chat.stopping = true

/-- Whatever was changed, removed, failed or died before, a cold reopening yields the settings the
closed conductor had, but for a directory where the disk says there is none; and a setting that
cannot be saved stays as it was. -/
theorem settings_reopened
    (idempotent : ∀ path : String, Host.real (Host.real path) = Host.real path)
    (reach : Reachable s) (whole : s.Whole) {providers : List String} {cwd : Option String}
    {env : Env} (step : s.step (.reopen providers cwd env) = some t) (opened : t.ended = false) :
    (t.conf.chat.setup = s.conf.chat.setup ↔
      s.conf.chat.meta_.data.settings.lookup "cwd" ≠ some (.string "") ∨
        Host.real (offered cwd) = s.conf.chat.config.cwd) ∧
    (∀ setting conf conf', applyChange setting conf = .error .failed conf' →
      conf'.chat.setup = conf.chat.setup ∧ conf'.chat.meta_ = conf.chat.meta_) ∧
    ∀ key value action conf conf',
      commit action (·.setSetting key value) conf = .error .failed conf' →
        conf'.chat.setup = conf.chat.setup ∧ conf'.chat.meta_ = conf.chat.meta_ := by
  refine ⟨?_, fun _ _ _ h => applyChange_failed h, fun _ _ _ _ _ h => saveSetting_failed h⟩
  have holds := (settings_invariant idempotent fun _ _ => True).holds reach
  have left : s.conf.books.Sound ∧ Spoilt s.conf := by
    cases ended : s.ended with
    | true => exact holds.dead ended
    | false => exact (holds.live ended).left
  have pinned : Pinned s.conf.chat := by
    cases ended : s.ended with
    | false => exact (holds.live ended).pinned
    | true =>
      refine left.2.pinned.resolve_right fun other => ?_
      rcases other with failed | running
      · exact failed whole.opened
      · rw [whole.closed ended] at running
        cases running
  obtain ⟨conf, stack, ended⟩ := t
  cases opened
  have reopened := Option.some.inj step
  have stack_nil : stack = [] := by
    unfold opening at reopened
    dsimp only at reopened
    split at reopened <;> cases reopened
    rfl
  subst stack_nil
  obtain ⟨c, settings, read⟩ := reread_of_opening left.1 reopened
  rw [read.setup]
  exact pinned.restored providers cwd settings

end System

section samples
attribute [local instance] Host.ascii

/-- Stop the conductor, and let it. -/
def closing : List Move :=
  .receive (.stop []) Env.ascii :: List.replicate 3 .advance

/-- One wake for each change. -/
def changing (changes : List Change) : List Move :=
  .receive (.configure changes) Env.ascii :: List.replicate (changes.length + 2) .advance

/-- Every kind of change, with texts that are empty or not. -/
def everyChange : List Change := [
  .providers ["codex-app-server", "claude-code"], .model (.model none "opus" "high" true),
  .systemPrompt "be brief", .appendSystemPrompt "", .subagents true, .mcp true, .autoremove false,
  .cwd "/work", .contextRecovery { transcriptHeader := "so far" }]

/-- Every setting comes back, whoever opens the session again and where. -/
theorem System.settings_reopened_all :
    ∃ s t : System, s.ended = true ∧ t.ended = false ∧
      s.conf.chat.config.cwd = "/work" ∧ s.conf.chat.config.systemPrompt = "be brief" ∧
      s.conf.chat.ask = .model none "opus" "high" true ∧
      s.step (.reopen ["other"] (some "/elsewhere") Env.ascii) = some t ∧
      t.conf.chat.setup = s.conf.chat.setup := by
  have run : ((System.after "chat" ["claude-code"] Env.ascii
      (changing everyChange ++ closing)).bind fun s =>
        (s.step (.reopen ["other"] (some "/elsewhere") Env.ascii)).map fun t =>
          ([s.ended, s.conf.chat.stopping, t.ended], s.conf.chat.startupError,
            [s.conf.chat.config.cwd, s.conf.chat.config.systemPrompt], s.conf.chat.ask,
            s.conf.chat.meta_.data.settings.lookup "cwd")) =
      some ([true, true, false], none, ["/work", "be brief"], .model none "opus" "high" true,
        some (.string "/work")) := by
    decide +kernel
  obtain ⟨s, hs, run⟩ := Option.bind_eq_some_iff.mp run
  obtain ⟨t, step, heq⟩ := Option.map_eq_some_iff.mp run
  simp only [Prod.mk.injEq, List.cons.injEq, and_true] at heq
  obtain ⟨⟨ended, stopping, opened⟩, clean, ⟨directory, prompt⟩, ask, stored⟩ := heq
  have whole : s.Whole := ⟨clean, fun _ => stopping⟩
  have same := (System.settings_reopened (fun _ => rfl) (System.reachable_after hs) whole step
    opened).1.mpr (.inl (by rw [stored]; decide))
  exact ⟨s, t, ended, opened, directory, prompt, ask, step, same⟩

/-- The daemon takes an empty directory for a setting, and the session that is closed with it moves
to wherever it is opened from, every time. -/
theorem empty_directory_moves :
    Daemon.changeFrom ⟨fun _ => "", fun _ => ""⟩ "cwd" (.string "") = .ok (.cwd "") ∧
    ∃ s t u v : System,
      System.Reachable s ∧ s.Whole ∧ s.ended = true ∧ s.conf.chat.config.cwd = "" ∧
      s.step (.reopen ["claude-code"] (some "/a") Env.ascii) = some t ∧ t.ended = false ∧
      t.conf.chat.config.cwd = "/a" ∧ System.machine.exec t closing = some u ∧ u.Whole ∧
      u.conf.chat.config.cwd = "/a" ∧
      u.step (.reopen ["claude-code"] (some "/b") Env.ascii) = some v ∧ v.ended = false ∧
      v.conf.chat.config.cwd = "/b" := by
  refine ⟨rfl, ?_⟩
  have run : ((System.after "chat" ["claude-code"] Env.ascii
      (changing [.cwd ""] ++ closing)).bind fun s =>
        (s.step (.reopen ["claude-code"] (some "/a") Env.ascii)).bind fun t =>
          (System.machine.exec t closing).bind fun u =>
            (u.step (.reopen ["claude-code"] (some "/b") Env.ascii)).map fun v =>
              ([s, t, u, v].map (·.conf.chat.startupError), [s, t, u, v].map (·.ended),
                [s, u].map (·.conf.chat.stopping), [s, t, u, v].map (·.conf.chat.config.cwd))) =
      some ([none, none, none, none], [true, false, true, false], [true, true],
        ["", "/a", "/a", "/b"]) := by
    decide +kernel
  obtain ⟨s, hs, run⟩ := Option.bind_eq_some_iff.mp run
  obtain ⟨t, first, run⟩ := Option.bind_eq_some_iff.mp run
  obtain ⟨u, closed, run⟩ := Option.bind_eq_some_iff.mp run
  obtain ⟨v, second, heq⟩ := Option.map_eq_some_iff.mp run
  simp only [List.map_cons, List.map_nil, Prod.mk.injEq, List.cons.injEq, and_true] at heq
  obtain ⟨⟨sClean, -, uClean, -⟩, ⟨sEnded, tOpen, -, vOpen⟩, ⟨sStops, uStops⟩, sCwd, tCwd, uCwd,
    vCwd⟩ := heq
  exact ⟨s, t, u, v, System.reachable_after hs, ⟨sClean, fun _ => sStops⟩, sEnded, sCwd, first,
    tOpen, tCwd, closed, ⟨uClean, fun _ => uStops⟩, uCwd, second, vOpen, vCwd⟩

end samples

end SiliconOmni
