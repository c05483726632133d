import SiliconOmni.Journal
import SiliconOmni.Session

/-! The metadata file: how it is read, and how one replacement of it is written step by step. -/
namespace SiliconOmni
open Jsonl (Bytes)

namespace Native

def toValue (native : Native) : Value :=
  .object [("id", .string native.id), ("synced", .number native.synced)]

/-- Read one entry of the providers. -/
def load (name : String) : Value → Except String Native
  | .object entry => do
      let id ← match entry.lookup "id" with
        | none => .ok ""
        | some (.string id) => .ok id
        | some _ => .error s!"providers.{name}.id must be text"
      let synced ← match entry.lookup "synced" with
        | none => .ok (-1)
        | some (.number synced) => .ok synced
        | some _ => .error s!"providers.{name}.synced must be an integer"
      return { id, synced }
  | _ => .error s!"providers.{name} must be an object"

@[simp] theorem load_toValue (name : String) (native : Native) :
    load name native.toValue = .ok native := rfl

end Native

namespace PendingMessage

def toValue (message : PendingMessage) : Value :=
  .object [("id", .string message.id), ("text", .string message.text)]

def ofValue : Value → Option PendingMessage
  | .object m => do
      return {
        id := ← (m.lookup "id").bind Value.asStr
        text := ← (m.lookup "text").bind Value.asStr }
  | _ => none

@[simp] theorem ofValue_toValue (message : PendingMessage) :
    ofValue message.toValue = some message := rfl

end PendingMessage

namespace MetaData

def PROVIDERS : String := "providers"
def SETTINGS : String := "settings"
def PENDING : String := "pending"

/-- The keys that are namespaces of their own. -/
def reserved : List String := [PROVIDERS, SETTINGS, PENDING]

def toValue (data : MetaData) : Value :=
  .object ([(PENDING, .array (data.pending.map PendingMessage.toValue)),
    (PROVIDERS, .object (data.providers.map fun entry => (entry.1, entry.2.toValue))),
    (SETTINGS, .object data.settings)] ++ data.top)

def loadProviders : Fields → Except String (Entries Native)
  | [] => .ok []
  | (name, entry) :: rest => do
      let native ← Native.load name entry
      return (name, native) :: (← loadProviders rest)

/-- The pending messages, whose ids so far were `ids`. -/
def loadPending (serde : Serde) :
    List String → ℕ → List Value → Except String (List PendingMessage)
  | _, _, [] => .ok []
  | ids, index, value :: rest =>
      match PendingMessage.ofValue value with
      | none =>
          let error := serde.undecodable value
          .error s!"pending[{index}] is invalid: {error}"
      | some message =>
          if message.id = "" then .error s!"pending[{index}].id cannot be empty"
          else if ids.contains message.id then
            .error s!"pending[{index}].id duplicates an earlier message"
          else do
            return message :: (← loadPending serde (message.id :: ids) (index + 1) rest)

/-- Existing metadata that cannot be read is an error: replacing it could discard an acknowledged
message. -/
def ofValue (serde : Serde) : Value → Except String MetaData
  | .object m => do
      let providers ← match m.lookup PROVIDERS with
        | none => .ok []
        | some (.object providers) => loadProviders providers
        | some _ => .error "providers must be an object"
      let settings ← match m.lookup SETTINGS with
        | none => .ok []
        | some (.object settings) => .ok settings
        | some _ => .error "settings must be an object"
      let pending ← match m.lookup PENDING with
        | none => .ok []
        | some (.array pending) => loadPending serde [] 0 pending
        | some _ => .error "pending must be an array"
      return { providers, settings, pending, top := m.filter fun entry => !reserved.contains entry.1 }
  | value => .error (serde.undecodable value)

/-- Missing metadata means a new session. -/
def load (serde : Serde) : Option Bytes → Except String MetaData
  | none => .ok {}
  | some text => (serde.parse text).bind (ofValue serde)

/-- Metadata that is read back as it was written. -/
structure Regular (data : MetaData) : Prop where
  pending : rejectPending [] data.pending 0 = none
  top : ∀ entry ∈ data.top, entry.1 ∉ reserved

theorem loadProviders_toValue (providers : Entries Native) :
    loadProviders (providers.map fun entry => (entry.1, entry.2.toValue)) = .ok providers := by
  induction providers with
  | nil => rfl
  | cons entry rest ih =>
    rw [List.map_cons, loadProviders, Native.load_toValue, ih]
    rfl

theorem loadPending_toValue (serde : Serde) {ids : List String} {index : ℕ}
    {pending : List PendingMessage} (h : rejectPending ids pending index = none) :
    loadPending serde ids index (pending.map PendingMessage.toValue) = .ok pending := by
  induction pending generalizing ids index with
  | nil => rfl
  | cons message rest ih =>
    rw [rejectPending] at h
    split_ifs at h with hempty hdouble
    rw [List.map_cons, loadPending, PendingMessage.ofValue_toValue]
    dsimp only
    rw [if_neg hempty, if_neg hdouble, ih h]
    rfl

theorem ofValue_toValue (serde : Serde) {data : MetaData} (h : data.Regular) :
    ofValue serde data.toValue = .ok data := by
  have htop : data.top.filter (fun entry => !reserved.contains entry.1) = data.top := by
    rw [List.filter_eq_self]
    intro entry hentry
    simpa using h.top entry hentry
  obtain ⟨m, hm⟩ : ∃ m, data.toValue = .object m := ⟨_, rfl⟩
  have hproviders : m.lookup PROVIDERS =
      some (.object (data.providers.map fun entry => (entry.1, entry.2.toValue))) := by
    rw [← Value.object.inj hm]
    rfl
  have hsettings : m.lookup SETTINGS = some (.object data.settings) := by
    rw [← Value.object.inj hm]
    rfl
  have hpending : m.lookup PENDING =
      some (.array (data.pending.map PendingMessage.toValue)) := by
    rw [← Value.object.inj hm]
    rfl
  have hrest : (m.filter fun entry => !reserved.contains entry.1) = data.top := by
    rw [← Value.object.inj hm, List.filter_append, htop]
    rfl
  rw [hm, ofValue, hproviders, hsettings, hpending, hrest]
  simp only [loadProviders_toValue, loadPending_toValue serde h.pending]
  rfl

/-- A regular state that the JSON library prints faithfully is read back from its file. -/
theorem load_print {serde : Serde} {data : MetaData} (regular : data.Regular)
    (faithful : serde.parse (serde.print data.toValue) = .ok data.toValue) :
    load serde (some (serde.print data.toValue)) = .ok data := by
  rw [load, faithful]
  exact ofValue_toValue serde regular

end MetaData

/-- The metadata as its file has it. -/
def Meta.openFile (serde : Serde) (file : Option Bytes) : Meta :=
  match MetaData.load serde file with
  | .ok data => { data }
  | .error error => { loadError := some error }

/-- What the write of one replacement does, in order. -/
inductive Step where
  | ensure | print | openStaging | permissions | write | sync | rename | openParent | syncParent
  deriving DecidableEq, Repr

def Step.all : List Step :=
  [.ensure, .print, .openStaging, .permissions, .write, .sync, .rename, .openParent, .syncParent]

/-- The file a replacement is written to before it takes its name. -/
structure Staging where
  bytes : Bytes := []
  synced : Bool := false

structure Files where
  /-- The metadata file as a reader finds it. -/
  path : Option Bytes := none
  /-- What it held under older directory entries that a power loss may bring back. -/
  former : List (Option Bytes) := []
  /-- Whether its bytes were on the disk before it took its name. -/
  synced : Bool := true
  staging : Option Staging := none

/-- What may be in the metadata file after a crash. -/
inductive Files.Left (files : Files) : Option Bytes → Prop where
  | now : Files.Left files files.path
  | former {old : Option Bytes} (unsynced : old ∈ files.former) : Files.Left files old
  | torn {text piece : Bytes} (unsynced : files.synced = false) (path : files.path = some text)
      (part : piece <+: text) : Files.Left files (some piece)

namespace Step

/-- A step that succeeds. -/
def done (body : Bytes) : Step → Files → Files
  | .openStaging, files => { files with staging := some {} }
  | .write, files => { files with staging := some { bytes := body } }
  | .sync, files =>
      { files with staging := files.staging.map fun staging => { staging with synced := true } }
  | .rename, files =>
      match files.staging with
      | some staging => {
          path := some staging.bytes
          former := files.path :: files.former
          synced := staging.synced }
      | none => files
  | .syncParent, files => { files with former := [] }
  | _, files => files

/-- A step that fails, or that the process does not outlive: a write may get some bytes down. -/
def begun (body : Bytes) (written : ℕ) : Step → Files → Files
  | .write, files => { files with staging := some { bytes := body.take written } }
  | _, files => files

/-- What a failed step leaves behind is removed, once there may be something. -/
def cleaned : Step → Files → Files
  | .ensure, files | .print, files => files
  | _, files => { files with staging := none }

end Step

/-- Take the steps one after another, up to one that does not succeed. -/
def takeSteps (body : Bytes) : List Step → Option (Step × ℕ) → Files → Files
  | [], _, files => files
  | step :: later, stop, files =>
      match stop with
      | some (bad, written) =>
          if step = bad then step.begun body written files
          else takeSteps body later stop (step.done body files)
      | none => takeSteps body later stop (step.done body files)

/-- A change of the metadata. -/
inductive Mutation where
  | bind (provider nativeId : String)
  | markSynced (provider : String) (seq : ℤ)
  | set (key : String) (value : Value)
  | setSetting (key : String) (value : Value)
  | initializeSettings (defaults : Fields)
  | enqueue (message : PendingMessage)
  | retry (messages : List PendingMessage)
  | complete (id : String)
  | reconcile (delivered : List String)
  | recover (state : Value) (historyStart : Option ℤ) (message : Option PendingMessage)
      (superseded : Option String)
  | save

namespace Mutation

def edit : Mutation → MetaData → MetaData
  | .bind provider nativeId, data => data.bind provider nativeId
  | .markSynced provider seq, data => data.markSynced provider seq
  | .set key value, data => { data with top := Entries.insert data.top key value }
  | .setSetting key value, data => data.setSetting key value
  | .initializeSettings defaults, data => data.initializeSettings defaults
  | .enqueue message, data => data.enqueue message
  | .retry messages, data => data.retry messages
  | .complete id, data => data.complete id
  | .reconcile delivered, data => data.reconcile delivered
  | .recover state historyStart message superseded, data =>
      data.recover state historyStart message superseded
  | .save, data => data

/-- Whether `reconcile` returns before it looks at anything else. -/
def idle : Mutation → MetaData → Bool
  | .reconcile delivered, data => !data.pending.any fun message => delivered.contains message.id
  | _, _ => false

/-- The data a mutation writes: none where it would change nothing, but for `save`. -/
def replacement (now : Value) (m : Mutation) (data : MetaData) : Option MetaData :=
  let next := m.edit data
  let stamped := { next with top := Entries.insert next.top "updated" now }
  match m with
  | .save => some stamped
  | _ => if next = data then none else some stamped

/-- The state a mutation is to bring about. -/
def target (now : Value) (m : Mutation) (data : MetaData) : MetaData :=
  (m.replacement now data).getD data

end Mutation

/-- The metadata in memory and on the disk. -/
structure MetaFile where
  meta_ : Meta
  files : Files

namespace MetaFile
variable (serde : Serde) (now : Value)

/-- One mutation, with the step of its write that fails, if one does: whether it succeeds, and the
state after it. -/
def mutate (m : Mutation) (stop : Option (Step × ℕ)) (s : MetaFile) : Bool × MetaFile :=
  if m.idle s.meta_.data then (true, s)
  else if s.meta_.loadError.isSome then (false, s)
  else match m.replacement now s.meta_.data with
    | none => (true, s)
    | some next =>
        let files := takeSteps (serde.print next.toValue) Step.all stop s.files
        match stop with
        | none => (true, { meta_ := { s.meta_ with data := next }, files })
        | some (bad, _) => (false, { s with files := bad.cleaned files })

/-- The files of a process that does not outlive one step of the write. -/
def crash (m : Mutation) (point : Step × ℕ) (s : MetaFile) : Files :=
  if m.idle s.meta_.data ∨ s.meta_.loadError.isSome then s.files
  else match m.replacement now s.meta_.data with
    | none => s.files
    | some next => takeSteps (serde.print next.toValue) Step.all (some point) s.files

/-- Whatever a crash leaves of the file is read as what is in memory. -/
def Settled (s : MetaFile) : Prop := ∀ file, s.files.Left file → Meta.openFile serde file = s.meta_

/-- A mutation that succeeds brings its state about in memory and on the disk, one that fails
leaves both as they were, and a crash leaves the file with one of the two. -/
structure AllOrNothing (m : Mutation) (stop : Option (Step × ℕ)) (s : MetaFile) : Prop where
  ok : (s.mutate serde now m stop).1 = true →
    (s.mutate serde now m stop).2.meta_ = { s.meta_ with data := m.target now s.meta_.data } ∧
      (s.mutate serde now m stop).2.Settled serde
  err : (s.mutate serde now m stop).1 = false →
    (s.mutate serde now m stop).2.meta_ = s.meta_ ∧ (s.mutate serde now m stop).2.Settled serde
  crash : ∀ point file, (s.crash serde now m point).Left file →
    Meta.openFile serde file = s.meta_ ∨
      Meta.openFile serde file = { s.meta_ with data := m.target now s.meta_.data }

end MetaFile

/-- A failure comes after the new file has taken its name. -/
def Step.late : Step → Bool
  | .openParent | .syncParent => true
  | _ => false

namespace Files
variable {files files' : Files} {file : Option Bytes}

/-- The parts of the files that a crash may leave. -/
def visible (files : Files) : Option Bytes × List (Option Bytes) × Bool :=
  (files.path, files.former, files.synced)

theorem Left.congr (h : files.Left file) (same : files'.visible = files.visible) :
    files'.Left file := by
  obtain ⟨hpath, hrest⟩ := Prod.mk.inj same
  obtain ⟨hformer, hsynced⟩ := Prod.mk.inj hrest
  cases h with
  | now => exact hpath ▸ .now
  | former unsynced => exact .former (hformer ▸ unsynced)
  | torn unsynced path part => exact .torn (hsynced ▸ unsynced) (hpath ▸ path) part

theorem takeSteps_early (body : Bytes) {bad : Step} (early : bad.late = false) (written : ℕ) :
    (takeSteps body Step.all (some (bad, written)) files).visible = files.visible := by
  cases bad <;> first | rfl | cases early

theorem takeSteps_late (body : Bytes) {bad : Step} (late : bad.late) (written : ℕ) :
    (takeSteps body Step.all (some (bad, written)) files).visible =
      (some body, files.path :: files.former, true) := by
  cases bad <;> first | rfl | cases late

theorem takeSteps_all (body : Bytes) :
    (takeSteps body Step.all none files).visible = (some body, [], true) := rfl

/-- A file that was synced before it took its name is never torn. -/
theorem Left.of_synced {path : Option Bytes} {former : List (Option Bytes)}
    (h : files.Left file) (visible : files.visible = (path, former, true)) :
    file = path ∨ file ∈ former := by
  obtain ⟨hpath, hrest⟩ := Prod.mk.inj visible
  obtain ⟨hformer, hsynced⟩ := Prod.mk.inj hrest
  cases h with
  | now => exact .inl hpath
  | former unsynced => exact .inr (hformer ▸ unsynced)
  | torn unsynced _ _ => rw [hsynced] at unsynced; exact absurd unsynced Bool.noConfusion

end Files

@[simp] theorem Step.cleaned_visible (step : Step) (files : Files) :
    (step.cleaned files).visible = files.visible := by cases step <;> rfl

namespace Mutation
variable {now : Value} {m : Mutation} {data : MetaData}

theorem replacement_of_idle (h : m.idle data) : m.replacement now data = none := by
  cases m with
  | reconcile delivered =>
    have hkept : data.reconcile delivered = data := by
      unfold MetaData.reconcile
      have hfilter : data.pending.filter (fun message => !delivered.contains message.id) =
          data.pending := by
        rw [List.filter_eq_self]
        simpa [idle] using h
      rw [hfilter]
    simp [replacement, edit, hkept]
  | _ => exact absurd h Bool.false_ne_true

theorem target_of_none (h : m.replacement now data = none) : m.target now data = data := by
  rw [target, h, Option.getD_none]

theorem target_of_some {next : MetaData} (h : m.replacement now data = some next) :
    m.target now data = next := by
  rw [target, h, Option.getD_some]

end Mutation

namespace MetaFile
variable {serde : Serde} {now : Value} {m : Mutation} {stop : Option (Step × ℕ)} {s : MetaFile}

theorem openFile_print {data : MetaData} (regular : data.Regular)
    (faithful : serde.parse (serde.print data.toValue) = .ok data.toValue) :
    Meta.openFile serde (some (serde.print data.toValue)) = { data } := by
  rw [Meta.openFile, MetaData.load_print regular faithful]

/-- A mutation that leaves everything as it was. -/
theorem allOrNothing_of_same (settled : s.Settled serde) (same : (s.mutate serde now m stop).2 = s)
    (target : (s.mutate serde now m stop).1 = true → m.target now s.meta_.data = s.meta_.data)
    (crash : ∀ point, s.crash serde now m point = s.files) : s.AllOrNothing serde now m stop where
  ok h := by
    rw [same, target h]
    exact ⟨rfl, settled⟩
  err _ := by
    rw [same]
    exact ⟨rfl, settled⟩
  crash point file h := by
    rw [crash] at h
    exact .inl (settled file h)

/-- Where a mutation makes no write, nothing changes. -/
theorem allOrNothing_of_still (settled : s.Settled serde)
    (still : m.idle s.meta_.data ∨ s.meta_.loadError.isSome ∨
      m.replacement now s.meta_.data = none) : s.AllOrNothing serde now m stop := by
  by_cases hidle : m.idle s.meta_.data
  · have hmutate : s.mutate serde now m stop = (true, s) := by rw [mutate, if_pos hidle]
    apply allOrNothing_of_same settled
    · rw [hmutate]
    · exact fun _ => Mutation.target_of_none (Mutation.replacement_of_idle hidle)
    · intro point
      rw [crash, if_pos (.inl hidle)]
  · by_cases herror : s.meta_.loadError.isSome
    · have hmutate : s.mutate serde now m stop = (false, s) := by
        rw [mutate, if_neg hidle, if_pos herror]
      apply allOrNothing_of_same settled
      · rw [hmutate]
      · rw [hmutate]
        exact fun h => absurd h Bool.false_ne_true
      · intro point
        rw [crash, if_pos (.inr herror)]
    · have hnone := (still.resolve_left hidle).resolve_left herror
      have hmutate : s.mutate serde now m stop = (true, s) := by
        rw [mutate, if_neg hidle, if_neg herror, hnone]
      apply allOrNothing_of_same settled
      · rw [hmutate]
      · exact fun _ => Mutation.target_of_none hnone
      · intro point
        rw [crash, if_neg (by simp [hidle, herror]), hnone]

section settled
variable {next : MetaData}

/-- What a write leaves on the disk when all of it succeeds. -/
theorem settled_of_written
    (reads : Meta.openFile serde (some (serde.print next.toValue)) = { data := next }) :
    ({ meta_ := { data := next }
       files := takeSteps (serde.print next.toValue) Step.all none s.files } : MetaFile).Settled
      serde := by
  intro file h
  rcases h.of_synced (Files.takeSteps_all _) with rfl | hold
  · exact reads
  · exact absurd hold List.not_mem_nil

/-- A write that fails before the new file takes its name leaves everything as it was. -/
theorem settled_of_early (settled : s.Settled serde) {bad : Step} (early : bad.late = false)
    (written : ℕ) : ({ s with
      files := bad.cleaned (takeSteps (serde.print next.toValue) Step.all (some (bad, written))
        s.files) } : MetaFile).Settled serde := by
  intro file h
  have hvisible : (bad.cleaned (takeSteps (serde.print next.toValue) Step.all
      (some (bad, written)) s.files)).visible = s.files.visible := by
    rw [Step.cleaned_visible, Files.takeSteps_early _ early]
  exact settled file (h.congr hvisible.symm)

/-- A write that fails after the new file has taken its name. -/
theorem settled_of_late_iff (settled : s.Settled serde)
    (reads : Meta.openFile serde (some (serde.print next.toValue)) = { data := next }) {bad : Step}
    (late : bad.late) (written : ℕ) : ({ s with
      files := bad.cleaned (takeSteps (serde.print next.toValue) Step.all (some (bad, written))
        s.files) } : MetaFile).Settled serde ↔ s.meta_ = { data := next } := by
  have hvisible : (bad.cleaned (takeSteps (serde.print next.toValue) Step.all
      (some (bad, written)) s.files)).visible =
        (some (serde.print next.toValue), s.files.path :: s.files.former, true) := by
    rw [Step.cleaned_visible, Files.takeSteps_late _ late]
  constructor
  · intro h
    have hpath : (bad.cleaned (takeSteps (serde.print next.toValue) Step.all
        (some (bad, written)) s.files)).path = some (serde.print next.toValue) :=
      congrArg Prod.fst hvisible
    have hnow : Meta.openFile serde (bad.cleaned (takeSteps (serde.print next.toValue) Step.all
        (some (bad, written)) s.files)).path = s.meta_ := h _ .now
    rw [hpath, reads] at hnow
    exact hnow.symm
  · intro heq file h
    rcases h.of_synced hvisible with rfl | hold
    · exact reads.trans heq.symm
    · rcases List.mem_cons.mp hold with rfl | hformer
      · exact settled _ .now
      · exact settled _ (.former hformer)

end settled

section write
variable {next : MetaData} (busy : m.idle s.meta_.data = false)
  (healthy : s.meta_.loadError = none) (writes : m.replacement now s.meta_.data = some next)
include busy healthy writes

variable (serde stop) in
theorem mutate_write : s.mutate serde now m stop =
    match stop with
    | none => (true, { meta_ := { data := next }
                       files := takeSteps (serde.print next.toValue) Step.all none s.files })
    | some (bad, written) => (false, { s with
        files := bad.cleaned
          (takeSteps (serde.print next.toValue) Step.all (some (bad, written)) s.files) }) := by
  rw [mutate, busy, healthy, writes]
  cases stop with
  | none =>
    have hmeta : s.meta_ = { data := s.meta_.data } := by
      rw [← healthy]
    rw [hmeta]
    rfl
  | some point => rfl

theorem crash_write (point : Step × ℕ) : s.crash serde now m point =
    takeSteps (serde.print next.toValue) Step.all (some point) s.files := by
  rw [crash, busy, healthy, writes]
  simp

/-- What a crash in the middle of a write leaves is read as the old state or the new one. -/
theorem crash_left (settled : s.Settled serde)
    (reads : Meta.openFile serde (some (serde.print next.toValue)) = { data := next })
    (point : Step × ℕ) {file : Option Bytes} (h : (s.crash serde now m point).Left file) :
    Meta.openFile serde file = s.meta_ ∨ Meta.openFile serde file = { data := next } := by
  obtain ⟨bad, written⟩ := point
  rw [crash_write busy healthy writes] at h
  cases hlate : bad.late with
  | false =>
    exact .inl (settled file (h.congr (Files.takeSteps_early _ hlate written).symm))
  | true =>
    rcases h.of_synced (Files.takeSteps_late _ hlate written) with rfl | hold
    · exact .inr reads
    · refine .inl (settled file ?_)
      rcases List.mem_cons.mp hold with rfl | hformer
      · exact .now
      · exact .former hformer

end write

/-- A mutation is all or nothing exactly when the step that fails, if one does, is not the opening
or the sync of the directory the new file has already taken its name in; or when there is nothing
to change, or nothing may be changed. -/
theorem all_or_nothing_iff (serde : Serde) (now : Value) (m : Mutation)
    (stop : Option (Step × ℕ)) (s : MetaFile) (settled : s.Settled serde)
    (regular : (m.target now s.meta_.data).Regular)
    (faithful : serde.parse (serde.print (m.target now s.meta_.data).toValue) =
      .ok (m.target now s.meta_.data).toValue) :
    s.AllOrNothing serde now m stop ↔
      s.meta_.loadError.isSome ∨ m.target now s.meta_.data = s.meta_.data ∨
        ∀ written, stop ≠ some (.openParent, written) ∧ stop ≠ some (.syncParent, written) := by
  have hreads := openFile_print regular faithful
  by_cases hstill : m.idle s.meta_.data ∨ s.meta_.loadError.isSome ∨
      m.replacement now s.meta_.data = none
  · refine iff_of_true (allOrNothing_of_still settled hstill) ?_
    rcases hstill with hidle | herror | hnone
    · exact .inr (.inl (Mutation.target_of_none (Mutation.replacement_of_idle hidle)))
    · exact .inl herror
    · exact .inr (.inl (Mutation.target_of_none hnone))
  · rw [not_or, not_or] at hstill
    obtain ⟨hbusy, herror, hwrites⟩ := hstill
    have hbusy : m.idle s.meta_.data = false := by simpa using hbusy
    have healthy : s.meta_.loadError = none := by simpa using herror
    obtain ⟨next, hnext⟩ := Option.ne_none_iff_exists'.mp hwrites
    have hnew : ({ s.meta_ with data := next } : Meta) = { data := next } :=
      congrArg (Meta.mk next) healthy
    rw [Mutation.target_of_some hnext] at hreads ⊢
    have hcrash (point : Step × ℕ) (file : Option Bytes)
        (h : (s.crash serde now m point).Left file) :
        Meta.openFile serde file = s.meta_ ∨
          Meta.openFile serde file = { s.meta_ with data := m.target now s.meta_.data } := by
      rw [Mutation.target_of_some hnext, hnew]
      exact crash_left hbusy healthy hnext settled hreads point h
    have hmutate := mutate_write serde stop hbusy healthy hnext
    cases stop with
    | none =>
      refine iff_of_true ⟨fun _ => ?_, fun h => ?_, hcrash⟩ (.inr (.inr fun _ => ⟨by rintro ⟨⟩, by rintro ⟨⟩⟩))
      · rw [hmutate, Mutation.target_of_some hnext, hnew]
        exact ⟨rfl, settled_of_written hreads⟩
      · rw [hmutate] at h
        exact absurd h.symm Bool.false_ne_true
    | some point =>
      obtain ⟨bad, written⟩ := point
      have fails : s.AllOrNothing serde now m (some (bad, written)) ↔ ({ s with
          files := bad.cleaned (takeSteps (serde.print next.toValue) Step.all
            (some (bad, written)) s.files) } : MetaFile).Settled serde := by
        constructor
        · intro h
          have herr := h.err (by rw [hmutate])
          rw [hmutate] at herr
          exact herr.2
        · refine fun h => ⟨fun hok => ?_, fun _ => ?_, hcrash⟩
          · rw [hmutate] at hok
            exact absurd hok Bool.false_ne_true
          · rw [hmutate]
            exact ⟨rfl, h⟩
      rw [fails]
      cases hlate : bad.late with
      | false =>
        refine iff_of_true (settled_of_early settled hlate written) (.inr (.inr fun _ => ?_))
        constructor <;> (rintro heq; cases heq; cases hlate)
      | true =>
        rw [settled_of_late_iff settled hreads hlate]
        constructor
        · exact fun heq => .inr (.inl (congrArg Meta.data heq).symm)
        · rintro (herror' | heq | hother)
          · exact absurd herror' herror
          · rw [heq, ← healthy]
          · cases bad with
            | openParent => exact absurd rfl (hother written).1
            | syncParent => exact absurd rfl (hother written).2
            | _ => exact absurd hlate Bool.false_ne_true

/-- The metadata file of a session that has none yet. -/
def unwritten : MetaFile := { meta_ := {}, files := {} }

theorem unwritten_settled : unwritten.Settled serde := by
  intro file h
  cases h with
  | now => rfl
  | former unsynced => exact absurd unsynced List.not_mem_nil
  | torn _ path _ => exact absurd path.symm (Option.some_ne_none _)

/-- The first send of a session, and the data it is to write. -/
def firstSend : Mutation := .enqueue { id := "1", text := "go" }

def firstData : MetaData := firstSend.target (.string "12:00") {}

/-- The directory cannot be opened after the rename: the send is refused, and is there again when
the session is next opened. -/
theorem refused_send_reappears :
    let serde := Serde.ascii [firstData.toValue]
    let (ok, after) := unwritten.mutate serde (.string "12:00") firstSend (some (.openParent, 0))
    ok = false ∧ after.meta_.data.pending = [] ∧
      (Meta.openFile serde after.files.path).data.pending = [{ id := "1", text := "go" }] ∧
      ¬unwritten.AllOrNothing serde (.string "12:00") firstSend (some (.openParent, 0)) := by
  intro serde
  have hrun : (unwritten.mutate serde (.string "12:00") firstSend (some (.openParent, 0))).1 =
      false := by decide +kernel
  have hmemory : (unwritten.mutate serde (.string "12:00") firstSend
      (some (.openParent, 0))).2.meta_.data.pending = [] := by decide +kernel
  have hfile : (Meta.openFile serde (unwritten.mutate serde (.string "12:00") firstSend
      (some (.openParent, 0))).2.files.path).data.pending = [{ id := "1", text := "go" }] := by
    decide +kernel
  refine ⟨hrun, hmemory, hfile, fun h => ?_⟩
  have hsettled := (h.err hrun).2 _ .now
  rw [hsettled, hmemory] at hfile
  exact absurd hfile.symm (List.cons_ne_nil _ _)

theorem all_or_nothing_iff_refused :
    let serde := Serde.ascii [firstData.toValue]
    unwritten.AllOrNothing serde (.string "12:00") firstSend (some (.openParent, 0)) ↔
      unwritten.meta_.loadError.isSome ∨
        firstSend.target (.string "12:00") unwritten.meta_.data = unwritten.meta_.data ∨
        ∀ written, some (Step.openParent, 0) ≠ some (.openParent, written) ∧
          some (Step.openParent, 0) ≠ some (.syncParent, written) := by
  intro serde
  have regular : (firstSend.target (.string "12:00") unwritten.meta_.data).Regular :=
    ⟨by decide +kernel, by decide +kernel⟩
  have faithful : serde.Faithful firstData.toValue :=
    Serde.ascii_faithful List.mem_cons_self (by decide +kernel) (by decide +kernel)
      (by decide +kernel)
  exact all_or_nothing_iff serde (.string "12:00") firstSend (some (.openParent, 0)) unwritten
    unwritten_settled regular faithful.parses

end MetaFile
end SiliconOmni
