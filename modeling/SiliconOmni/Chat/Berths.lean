import SiliconOmni.Chat.Crew

/-! Bringing a runner up, putting one aside and taking one back leave every runner in its place. -/
namespace SiliconOmni
open Lib Frame

theorem Signature.Fits.minor {signature : Signature} {runner : Handle} {trace os : List Obs}
    (h : signature.Fits runner trace) (minor : ∀ o ∈ os, o.isMinor = true) :
    signature.Fits runner (os ++ trace) := by
  have same : told runner (os ++ trace) = told runner trace := by
    induction os with
    | nil => rfl
    | cons o os ih =>
      rw [List.cons_append, told_cons_minor (minor o List.mem_cons_self)]
      exact ih fun o member => minor o (List.mem_cons_of_mem _ member)
  obtain ⟨provider, fast, tells⟩ := h
  exact ⟨provider, fast, same.trans tells⟩

/-- Nobody is attached, these runners are in hand, and this is wanted of the next one. -/
structure Berth (stays : Handle → Prop) (hand : List Handle) (config : Config) (s : Conf) : Prop where
  aboard : Aboard stays hand s
  loyal : Loyal stays s.env
  free : s.chat.runner = none
  wanted : s.chat.config = config

/-- One runner is in hand, which runs on these settings. -/
structure Holding (stays : Handle → Prop) (runner : Handle) (signature : Signature) (config : Config)
    (s : Conf) : Prop extends Berth stays [runner] config s where
  fits : signature.Fits runner s.trace

/-- No runner of this provider is on board. -/
def Conf.Lacks (s : Conf) (name : String) : Prop := ∀ runner ∈ s.board [], runner.name ≠ name

section berths
variable {α : Type} {stays : Handle → Prop} {hand : List Handle} {config : Config} {s t : Conf}
  {runner : Handle} {signature : Signature} {name : String}

theorem Unmoved.lacks (h : Unmoved s t) (lacks : s.Lacks name) : t.Lacks name := by
  have same : t.board [] = s.board [] := by simp [Conf.board, Chat.running, h.runner, h.parked]
  intro runner member
  exact lacks runner (same ▸ member)

theorem Berth.calm (h : Berth stays hand config s) (calm : Unmoved s t) : Berth stays hand config t :=
  ⟨calm.aboard h.aboard, calm.env ▸ h.loyal, calm.runner.trans h.free, calm.config.trans h.wanted⟩

theorem Berth.crewed (h : Berth stays [] config s) : Crewed stays s := ⟨h.aboard, h.loyal⟩

/-- With nobody in hand a calm step may halt. -/
theorem Berth.step {m : Conductor α} (h : Berth stays [] config s) (calm : (unmoving stays).Holds m) :
    wp m (fun _ t => Berth stays [] config t ∧ Unmoved s t) (fun _ t => Ashore stays t) s :=
  wp_mono (calm s) (fun _ _ ht => ⟨h.calm ht, ht⟩) fun _ _ ht => ht h.crewed

/-- A metadata change that is refused leaves the runners in hand to be stopped. -/
theorem Berth.tryCommit (h : Berth stays hand config s) (edit : MetaData → MetaData) :
    wp (tryCommit edit) (fun _ t => Unmoved s t) (fun _ t => Ashore stays t) s := by
  unfold SiliconOmni.tryCommit
  simp only [wp_bind, wp_self]
  split
  · exact .refl s
  · split
    · exact .refl s
    · simp only [wp_bind, wp_asks]
      split
      · exact .of_same rfl rfl rfl rfl
      · exact .of_same rfl rfl rfl rfl
      next died =>
        refine (h.aboard.cut fun runner stay => ?_).same rfl rfl
        exact (h.loyal runner stay).2.1 _ died

theorem Berth.stop (h : Berth stays [runner] config s) :
    Berth stays [] config { s with trace := .stopped runner :: s.trace } :=
  ⟨h.aboard.stop, h.loyal, h.free, h.wanted⟩

/-- Nobody else drives the provider of a runner in hand. -/
theorem Berth.lacks (h : Berth stays [runner] config s) : s.Lacks runner.name := by
  intro other member name
  exact (List.nodup_cons.mp h.aboard.apart).1 (List.mem_map.mpr ⟨other, member, name⟩)

theorem Berth.wp_stop {β : Type} {Q : β → Conf → Prop} {H : Halt → Conf → Prop}
    (h : Berth stays [runner] config s) {f : Unit → Conductor β}
    (next : ∀ t, Berth stays [] config t → t.Lacks runner.name → wp (f ()) Q H t) :
    wp (SiliconOmni.stop runner >>= f) Q H s := by
  rw [wp_bind, SiliconOmni.wp_stop]
  exact next _ h.stop h.lacks

namespace Holding

theorem calm (h : Holding stays runner signature config s) (calm : Unmoved s t) :
    Holding stays runner signature config t := by
  obtain ⟨os, ho, hos⟩ := calm.trace
  exact ⟨h.toBerth.calm calm, ho ▸ h.fits.minor fun o member => (hos o member).1⟩

theorem noted (h : Holding stays runner signature config s) {o : Obs} (minor : o.isMinor = true)
    (about : o.about = some runner) :
    Holding stays runner signature config { s with trace := o :: s.trace } := by
  refine ⟨⟨h.aboard.noted minor fun other heq => ?_, h.loyal, h.free, h.wanted⟩, ?_⟩
  · rw [← Option.some.inj (about.symm.trans heq)]
    exact List.mem_cons_self
  · have quiet : ∀ other ∈ [o], other.isMinor = true := by simpa using minor
    exact h.fits.minor quiet

variable {β : Type} {Q : β → Conf → Prop} {H : Halt → Conf → Prop}

theorem wp_asks (h : Holding stays runner signature config s) {question : Env → ℕ → α}
    {f : α → Conductor β}
    (next : ∀ answer t, Holding stays runner signature config t → wp (f answer) Q H t) :
    wp (asks question >>= f) Q H s := by
  rw [wp_bind, SiliconOmni.wp_asks]
  exact next _ _ (h.calm (.of_same rfl rfl rfl rfl))

theorem wp_note (h : Holding stays runner signature config s) {o : Obs} {f : Unit → Conductor β}
    (minor : o.isMinor = true) (about : o.about = some runner)
    (next : ∀ t, Holding stays runner signature config t → wp (f ()) Q H t) :
    wp (note o >>= f) Q H s := by
  rw [wp_bind, SiliconOmni.wp_note]
  exact next _ (h.noted minor about)

end Holding

/-- Putting away what is not there changes nothing. -/
theorem Berth.remove (h : Berth stays [] config s) (lacks : s.Lacks name) :
    s.chat.parked.remove name = s.chat.parked := by
  refine List.filter_eq_self.mpr fun entry member => decide_eq_true ?_
  rw [h.aboard.keyed entry member]
  exact lacks _ (Aboard.parked_board member)

/-- The attached runner is put aside, or put down where it cannot be. -/
theorem park_berth (h : Holding stays runner signature config s)
    (current : s.chat.current = some signature) :
    wp (park runner) (fun _ t => Berth stays [] config t) (fun _ t => Ashore stays t) s := by
  unfold park
  extract_lets name
  rw [wp_bind, wp_self]
  extract_lets epoch rest
  rw [wp_bind, wp_change, wp_bind, wp_asks, wp_bind, wp_self]
  have start : Unmoved s { s with
      calls := s.calls + 1
      chat := { s.chat with runnerEpoch := none } } := .of_same rfl rfl rfl rfl
  have held := h.calm start
  rw [wp_ite]
  constructor
  · intro _
    simp only [wp_bind, wp_stop]
    have lacks := held.lacks
    refine wp_mono (held.stop.step (tryCommit_unmoved _)) ?_ fun _ _ => id
    rintro bound t ⟨ht, first⟩
    rw [wp_bind]
    refine wp_mono (ht.step (tryCommit_unmoved _)) ?_ fun _ _ => id
    rintro marked u ⟨hu, second⟩
    have absent : u.Lacks runner.name := second.lacks (first.lacks lacks)
    split
    · rw [wp_bind, wp_change, wp_bind]
      have gone : Unmoved u { u with
          chat := { u.chat with parked := u.chat.parked.remove runner.name } } := by
        refine .of_same ?_ rfl rfl rfl
        rw [hu.remove absent]
      exact wp_mono ((hu.calm gone).step (record_unmoved _)) (fun _ _ ht => ht.1) fun _ _ => id
    · exact hu.crewed.aboard.abandoned _ _ _
    · exact hu.crewed.aboard.abandoned _ _ _
  · intro _
    have ends {t : Conf} (ht : Holding stays runner signature config t)
        (running : t.chat.current = some signature) :
        wp (rest ⟨⟩) (fun _ u => Berth stays [] config u) (fun _ u => Ashore stays u) t := by
      simp only [rest, wp_bind, wp_self, wp_asks, running]
      split
      next _ other same =>
        have again : Unmoved t { t with calls := t.calls + 1 } := .of_same rfl rfl rfl rfl
        have noted := (ht.calm again).noted (o := .parked runner) rfl rfl
        rw [wp_bind, wp_note, wp_change]
        exact ⟨noted.aboard.shelve rfl (Option.some.inj same ▸ noted.fits) rfl rfl rfl, noted.loyal,
          noted.free, noted.wanted⟩
      · have again : Unmoved t { t with calls := t.calls + 1 } := .of_same rfl rfl rfl rfl
        exact (ht.calm again).stop
    rw [wp_ite]
    constructor
    · intro _
      rw [wp_bind]
      refine wp_mono (held.tryCommit _) (fun bound t calm => ?_) fun _ _ => id
      split
      · exact ends (held.calm calm) (calm.current.trans current)
      · rw [wp_bind, wp_stop]
        exact (held.calm calm).stop.crewed.aboard.abandoned _ _ _
    · exact fun _ => ends held current

/-- What taking a parked runner back gives: that runner in hand, or nobody. Either way its provider is
no longer driven by any other. -/
def Taken (stays : Handle → Prop) (config : Config) (signature : Signature) (name : String)
    (answer : Option Handle) (s : Conf) : Prop :=
  match answer with
  | some runner => Holding stays runner signature config s ∧ runner.name = name
  | none => Berth stays [] config s ∧ s.Lacks name

theorem unpark_berth {entry : Parked} (h : Berth stays [] config s)
    (found : s.chat.parked.lookup name = some entry) :
    wp (unpark name) (fun answer t => Taken stays config entry.signature name (answer.map (·.1)) t)
      (fun _ t => Ashore stays t) s := by
  have member : (name, entry) ∈ s.chat.parked := Entries.mem_of_lookup found
  have named : entry.runner.name = name := (h.aboard.keyed _ member).symm
  have held : Holding stays entry.runner entry.signature config { s with
      chat := { s.chat with parked := s.chat.parked.remove name } } :=
    ⟨⟨h.aboard.fetch found rfl rfl rfl, h.loyal, h.free, h.wanted⟩, h.aboard.lot _ member⟩
  have asked {t : Conf} (ht : Holding stays entry.runner entry.signature config t) :
      Holding stays entry.runner entry.signature config { t with calls := t.calls + 1 } :=
    ht.calm (.of_same rfl rfl rfl rfl)
  unfold unpark
  rw [wp_bind, wp_self]
  simp only [found]
  rw [wp_bind, wp_change, wp_bind, wp_asks, wp_ite]
  constructor
  · intro _
    rw [wp_bind, wp_self]
    refine (asked held).wp_asks fun took t ht => ?_
    rw [wp_bind, wp_self]
    refine ht.wp_note rfl rfl fun u hu => ?_
    rw [wp_ite]
    constructor
    · intro _
      refine hu.wp_asks fun seeded v hv => hv.wp_note rfl rfl fun w hw => ?_
      rw [wp_ite]
      constructor
      · intro _
        rw [wp_bind, wp_self, wp_bind]
        refine wp_mono (hw.tryCommit _) (fun marked x calm => ?_) fun _ _ => id
        split
        · exact ⟨hw.calm calm, named⟩
        · exact (hw.calm calm).wp_stop fun y hy _ => hy.crewed.aboard.abandoned _ _ _
      · exact fun _ => ⟨hw, named⟩
    · exact fun _ => hu.wp_stop fun v hv lacks => ⟨hv, named ▸ lacks⟩
  · intro dead
    have lost := asked held
    refine ⟨⟨lost.aboard.drop fun stay => ?_, lost.loyal, lost.free, lost.wanted⟩, named ▸ lost.lacks⟩
    exact dead ((h.loyal _ stay).1 _)

theorem takeParked_berth (h : Berth stays [] config s) {wanted : Signature}
    (same : wanted.config = config) :
    wp (takeParked name wanted) (fun answer t =>
      (∀ runner epoch tuned, answer = some (runner, epoch, tuned) →
        ∃ signature : Signature, Holding stays runner signature config t ∧ runner.name = name ∧
          signature.config = config ∧
            (tuned = true → signature.model = wanted.model ∧ signature.effort = wanted.effort)) ∧
      (answer = none → Berth stays [] config t ∧ t.Lacks name)) (fun _ t => Ashore stays t) s := by
  unfold takeParked
  rw [wp_bind, wp_self]
  cases found : s.chat.parked.lookup name with
  | none =>
    refine ⟨by rintro _ _ _ ⟨⟩, fun _ => ⟨h, fun runner member named => ?_⟩⟩
    rw [Conf.board, List.nil_append, Chat.running, h.free] at member
    obtain ⟨entry, onLot, rfl⟩ := List.mem_map.mp member
    have key := h.aboard.keyed entry onLot
    have none_ := List.lookup_eq_none_iff.mp found entry onLot
    simp [key, named] at none_
  | some entry =>
    have member : (name, entry) ∈ s.chat.parked := Entries.mem_of_lookup found
    have named : entry.runner.name = name := (h.aboard.keyed _ member).symm
    dsimp only
    rw [wp_ite]
    constructor
    · intro _
      rw [wp_bind, wp_change]
      have held : Holding stays entry.runner entry.signature config { s with
          chat := { s.chat with parked := s.chat.parked.remove name } } :=
        ⟨⟨h.aboard.fetch found rfl rfl rfl, h.loyal, h.free, h.wanted⟩, h.aboard.lot _ member⟩
      exact held.wp_stop fun t ht lacks => ⟨by rintro _ _ _ ⟨⟩, fun _ => ⟨ht, named ▸ lacks⟩⟩
    · intro config_eq
      rw [not_not] at config_eq
      rw [wp_bind]
      refine wp_mono (unpark_berth h found) (fun answer t taken => ?_) fun _ _ => id
      cases answer with
      | none => exact ⟨by rintro _ _ _ ⟨⟩, fun _ => taken⟩
      | some kept =>
        obtain ⟨runner, epoch⟩ := kept
        refine ⟨?_, by rintro ⟨⟩⟩
        rintro _ _ _ ⟨⟩
        refine ⟨entry.signature, taken.1, taken.2, config_eq.trans same, fun tunes => ?_⟩
        simpa using tunes

/-- What the settings want of a runner on this rung. -/
def Pick.wanted (rung : Pick) (config : Config) : Signature :=
  { provider := rung.provider, model := rung.model, effort := rung.effort, config }

theorem Berth.asked (h : Berth stays hand config s) (rung : Pick) :
    s.chat.signature rung = rung.wanted config := by
  rw [Chat.signature, h.wanted]
  rfl

theorem adopt_crewed {rung : Pick} (h : Holding stays runner (rung.wanted config) config s)
    (epoch : Option ℕ) (fresh : Bool) :
    wp (adopt runner epoch rung fresh) (fun _ t => Crewed stays t) (fun _ t => Ashore stays t) s := by
  unfold adopt
  refine h.wp_asks fun native t ht => ht.wp_asks fun seeded u hu => ?_
  refine hu.wp_note rfl rfl fun v hv => hv.wp_note rfl rfl fun w hw => ?_
  rw [wp_bind, wp_change, wp_bind]
  unfold rememberRunnerTurn
  rw [wp_change, wp_bind, wp_change]
  have crewed (epochTurns : ℕ → Option ℤ) : Crewed stays { w with chat := { w.chat with
      runner := some runner, runnerEpoch := epoch, syncCeiling := none, epochTurns
      current := some (w.chat.signature rung) } } :=
    ⟨hw.aboard.attach hw.free rfl rfl ⟨_, rfl, hw.asked rung ▸ hw.fits⟩, hw.loyal⟩
  refine wp_mono ((?_ : (unmoving stays).Holds _) _) (fun _ _ calm => calm.crewed (crewed _))
    fun _ _ ends => ends (crewed _)
  refine holds_bind (commit_unmoved _ _) fun _ => ?_
  extract_lets rest
  have hrest : ∀ r, (unmoving stays).Holds (rest r) := fun _ =>
    holds_bind (recordLaunch_unmoved _ _ _) fun _ => refresh_unmoved
  refine holds_ite (holds_bind Admits.holds_self fun c => ?_) (hrest ⟨⟩)
  exact holds_bind (commit_unmoved _ _) fun _ => hrest ⟨⟩

variable [Host]

theorem bringUp_berth {rung : Pick} (h : Berth stays [] config s) (lacks : s.Lacks rung.provider)
    (nativeId : String) (since : ℤ) :
    wp (bringUp rung { config with model := rung.model, effort := rung.effort, fast := rung.fast }
        nativeId since)
      (fun answer t =>
        (∀ runner epoch, answer = .ok (runner, epoch) →
          Holding stays runner (rung.wanted config) config t ∧ runner.name = rung.provider) ∧
        ∀ why, answer = .error why → Berth stays [] config t)
      (fun _ t => Ashore stays t) s := by
  unfold bringUp
  rw [wp_bind, wp_self]
  extract_lets epoch
  rw [wp_bind, wp_change, wp_bind, wp_get, wp_ite]
  have numbered : Berth stays [] config { s with chat := { s.chat with
      nextRunnerEpoch := epoch + 1
      epochTurns := Function.update s.chat.epochTurns epoch (some s.chat.turn) } } :=
    h.calm (.of_same rfl rfl rfl rfl)
  constructor
  · intro _
    rw [wp_bind, wp_modifyGet, wp_bind, wp_self]
    extract_lets history
    rw [wp_bind, wp_asks]
    have named : ({ name := rung.provider, instance_ := s.built } : Handle).instance_ = s.built := rfl
    have came (took : Bool) (dial : List String) := numbered.aboard.hire named lacks
      { config with model := rung.model, effort := rung.effort, fast := rung.fast } nativeId history
      dial took
    have fits (dial : List String) : (rung.wanted config).Fits
        { name := rung.provider, instance_ := s.built }
        (.started { name := rung.provider, instance_ := s.built }
          { config with model := rung.model, effort := rung.effort, fast := rung.fast } nativeId
          history true dial :: s.trace) := by
      refine ⟨rfl, rung.fast, ?_⟩
      simp [told, Pick.wanted]
    split
    · rw [wp_bind, wp_self, wp_bind, wp_note]
      refine ⟨?_, by rintro _ ⟨⟩⟩
      rintro runner epoch ⟨⟩
      refine ⟨⟨⟨(came true _).same rfl rfl rfl, numbered.loyal, numbered.free, numbered.wanted⟩, fits _⟩, rfl⟩
    · rw [wp_bind, wp_self, wp_bind, wp_note]
      refine ⟨by rintro _ _ ⟨⟩, fun _ _ => ?_⟩
      exact ⟨(came false _).same rfl rfl rfl, numbered.loyal, numbered.free, numbered.wanted⟩
  · exact fun _ => ⟨by rintro _ _ ⟨⟩, fun _ _ => numbered⟩

/-- A runner is started, on the native session of its provider or on a new one. -/
theorem launchFresh_crewed {rung : Pick} (h : Berth stays [] config s) (lacks : s.Lacks rung.provider)
    (native : Native) :
    wp (launchFresh rung native) (fun _ t => Crewed stays t) (fun _ t => Ashore stays t) s := by
  unfold launchFresh
  rw [wp_bind, wp_self]
  have same : launchConfig s.chat rung =
      { config with model := rung.model, effort := rung.effort, fast := rung.fast } := by
    rw [launchConfig, h.wanted]
  rw [same, wp_bind]
  refine wp_mono (bringUp_berth h lacks _ _) ?_ fun _ _ => id
  rintro answer t ⟨up, down⟩
  split
  next why => exact (down why rfl).crewed
  next runner epoch =>
    obtain ⟨held, named⟩ := up runner epoch rfl
    refine held.wp_asks fun id_ u hu => ?_
    rw [wp_ite]
    constructor
    · intro _
      refine hu.wp_stop fun v hv gone => ?_
      rw [wp_bind]
      refine wp_mono (hv.step (asks_unmoved _)) ?_ fun _ _ => id
      rintro now w ⟨hw, asked⟩
      rw [wp_bind]
      refine wp_mono (hw.step (record_unmoved _)) ?_ fun _ _ => id
      rintro _ x ⟨hx, recorded⟩
      rw [wp_bind]
      have free : x.Lacks rung.provider := named ▸ recorded.lacks (asked.lacks gone)
      refine wp_mono (bringUp_berth hx free _ _) ?_ fun _ _ => id
      rintro again y ⟨up, down⟩
      split
      next why => exact (down why rfl).crewed
      next runner epoch =>
        rw [wp_bind]
        exact wp_mono (adopt_crewed (up runner epoch rfl).1 _ _) (fun _ _ => id) fun _ _ => id
    · intro _
      rw [wp_bind]
      exact wp_mono (adopt_crewed hu _ _) (fun _ _ => id) fun _ _ => id

omit [Host] in
/-- A runner in hand is retuned, and runs on the new settings where it agrees. -/
theorem retune_held {rung : Pick} {signature : Signature} (h : Holding stays runner signature config s)
    (provider : runner.name = rung.provider) (settings : signature.config = config) :
    wp (retune runner rung) (fun took t => Berth stays [runner] config t ∧ (took = true →
      Holding stays runner (rung.wanted config) config t)) (fun _ t => Ashore stays t) s := by
  unfold retune
  rw [wp_bind, wp_asks, wp_bind, wp_note]
  have aboard (took : Bool) : Aboard stays [runner] { s with
      trace := .retuned runner rung.model rung.effort took :: s.trace } := by
    refine h.aboard.retune List.mem_cons_self _ _ took rfl rfl ?_ fun _ => h.aboard.apart_lot
    rw [h.free]
    rintro _ ⟨⟩
  have berth (took : Bool) : Berth stays [runner] config { s with
      calls := s.calls + 1
      trace := .retuned runner rung.model rung.effort took :: s.trace } :=
    ⟨(aboard took).same rfl rfl rfl, h.loyal, h.free, h.wanted⟩
  refine ⟨berth _, fun took => ⟨berth _, provider.symm, ?_⟩⟩
  obtain ⟨-, fast, tells⟩ := h.fits
  refine ⟨fast, ?_⟩
  simp only [told, took, and_self, if_true, tells, Option.map_some, settings, Pick.wanted]

theorem launch_crewed (h : Berth stays [] config s) (rung : Pick) :
    wp (launch rung) (fun _ t => Crewed stays t) (fun _ t => Ashore stays t) s := by
  unfold launch
  rw [wp_bind, wp_self]
  extract_lets native
  rw [h.asked, wp_bind]
  refine wp_mono (takeParked_berth h rfl) ?_ fun _ _ => id
  rintro answer t ⟨kept, none_⟩
  split
  next runner epoch tuned =>
    obtain ⟨signature, held, named, settings, tunes⟩ := kept runner epoch tuned rfl
    have adopted {u : Conf} (hu : Holding stays runner (rung.wanted config) config u) :
        wp (do adopt runner epoch rung false; return (Except.ok () : Except String Unit))
          (fun _ v => Crewed stays v) (fun _ v => Ashore stays v) u := by
      rw [wp_bind]
      exact wp_mono (adopt_crewed hu _ _) (fun _ _ => id) fun _ _ => id
    extract_lets rest
    rw [wp_ite]
    constructor
    · intro tuned
      obtain ⟨model, effort⟩ := tunes tuned
      rw [wp_bind, wp_pure]
      have provider : signature.provider = rung.provider := held.fits.1.trans named
      have same : signature = rung.wanted config := by
        cases signature
        simp_all [Pick.wanted]
      exact adopted (same ▸ held)
    · intro _
      rw [wp_bind]
      refine wp_mono (retune_held held named settings) ?_ fun _ _ => id
      rintro took u ⟨hu, retuned⟩
      cases took with
      | true => exact adopted (retuned rfl)
      | false => exact hu.wp_stop fun v hv lacks => launchFresh_crewed hv (named ▸ lacks) native
  next =>
    obtain ⟨ht, lacks⟩ := none_ rfl
    exact launchFresh_crewed ht lacks native

end berths

section crews
variable {α β : Type} {stays : Handle → Prop} {s t : Conf}

theorem crews_of {m : Conductor α} (h : ∀ s, Crewed stays s →
    wp m (fun _ t => Crewed stays t) (fun _ t => Ashore stays t) s) : (crewing stays).Holds m := by
  intro s
  by_cases crewed : Crewed stays s
  · exact wp_mono (h s crewed) (fun _ _ ht _ => ht) fun _ _ ht _ => ht
  · unfold wp
    split
    · exact fun now => absurd now crewed
    · exact fun now => absurd now crewed

theorem Crewed.wp {m : Conductor α} (h : Crewed stays s) (holds : (crewing stays).Holds m) :
    wp m (fun _ t => Crewed stays t) (fun _ t => Ashore stays t) s :=
  holds.wp (fun _ _ ht => ht h) fun _ _ ht => ht h

/-- Nobody's place changes, whatever is wanted of the next runner. -/
theorem change_crews {f : Chat → Chat} (runner : ∀ c, (f c).runner = c.runner)
    (parked : ∀ c, (f c).parked = c.parked) (current : ∀ c, (f c).current = c.current) :
    (crewing stays).Holds (change f) := by
  intro s crewed
  refine ⟨crewed.aboard.regroup rfl rfl ?_ ?_ ?_ ?_, crewed.loyal⟩
  · simp [Conf.board, Chat.running, runner, parked]
  · simpa only [parked] using crewed.aboard.keyed
  · simpa only [runner, current] using crewed.aboard.seat
  · simpa only [parked] using crewed.aboard.lot

/-- The attached runner is taken in hand, with the settings it runs on. -/
theorem Crewed.lift {runner : Handle} (h : Crewed stays s) (attached : s.chat.runner = some runner) :
    ∃ signature, s.chat.current = some signature ∧ Holding stays runner signature s.chat.config
      { s with chat := { s.chat with runner := none } } := by
  obtain ⟨signature, current, fits⟩ := h.aboard.seat runner attached
  exact ⟨signature, current, ⟨⟨h.aboard.lift attached, h.loyal, rfl, rfl⟩, fits⟩⟩

theorem Crewed.berth (h : Crewed stays s) (free : s.chat.runner = none) :
    Berth stays [] s.chat.config s := ⟨h.aboard, h.loyal, free, rfl⟩

theorem replace_crews [Host] (rung : Pick) : (crewing stays).Holds (replace rung) := by
  refine crews_of fun s crewed => ?_
  unfold replace
  rw [wp_bind, wp_self]
  extract_lets previous rest
  have onward {u : Conf} {config : Config} (hu : Berth stays [] config u) :
      wp (rest ⟨⟩) (fun _ v => Crewed stays v) (fun _ v => Ashore stays v) u := by
    refine (wp_bind ..).mpr (wp_mono (hu.step (recordSwitch_unmoved _ _)) ?_ fun _ _ => id)
    rintro _ v ⟨hv, -⟩
    exact launch_crewed hv rung
  split
  next runner _ attached =>
    obtain ⟨signature, current, held⟩ := crewed.lift attached
    rw [wp_bind, wp_change, wp_bind]
    exact wp_mono (park_berth held current) (fun _ _ => onward) fun _ _ => id
  next free => exact onward (crewed.berth free)

theorem movedOn_crews (name why : String) : (crewing stays).Holds (movedOn name why) := by
  refine crews_of fun s crewed => ?_
  unfold movedOn
  rw [wp_bind, wp_self]
  extract_lets rest
  have onward {u : Conf} (hu : Crewed stays u) :
      Lib.wp (rest ⟨⟩) (fun _ v => Crewed stays v) (fun _ v => Ashore stays v) u := by
    refine hu.wp (crews_of_unmoved ?_)
    exact holds_bind Admits.holds_self fun _ =>
      holds_bind (record_unmoved _) fun _ => refresh_unmoved
  split
  next entry found =>
    rw [wp_bind, wp_change, wp_bind, wp_stop]
    have fetched := crewed.aboard.fetch (c := { s.chat with parked := s.chat.parked.remove name })
      found rfl rfl rfl
    exact onward ⟨fetched.stop, crewed.loyal⟩
  · exact onward crewed

theorem sideline_crews (name why : String) : (crewing stays).Holds (sideline name why) := by
  unfold sideline
  refine holds_bind Admits.holds_self fun c => holds_ite ?_ (holds_pure _)
  refine holds_bind (crews_of_unmoved (change_unmoved fun _ => rfl)) fun _ => ?_
  exact holds_bind (movedOn_crews _ _) fun _ => crews_of_unmoved anyoneLeft_unmoved

/-- The attached runner is put down. -/
theorem putDown_crewed (h : Crewed stays s) :
    Lib.wp putDown (fun _ t => Crewed stays t ∧ t.chat.runner = none) (fun _ t => Ashore stays t) s := by
  unfold putDown Chat.puttingDown
  rw [wp_bind, wp_self, wp_bind, wp_notes, wp_change]
  refine ⟨?_, rfl⟩
  cases attached : s.chat.runner with
  | none =>
    have calm : Unmoved s { s with
        chat := { s.chat with runner := none, runnerEpoch := none } } :=
      .of_same (by rw [Chat.post, Chat.post, attached]) rfl rfl rfl
    exact calm.crewed h
  | some runner =>
    obtain ⟨signature, -, held⟩ := h.lift attached
    have interrupted : Holding stays runner signature s.chat.config { s with
        trace := (if s.chat.inTurn then [Obs.interrupted runner] else []) ++ s.trace
        chat := { s.chat with runner := none } } := by
      split
      · exact held.noted rfl rfl
      · exact held
    have put : Unmoved _ { s with
        trace := .stopped runner ::
          ((if s.chat.inTurn then [Obs.interrupted runner] else []) ++ s.trace)
        chat := { s.chat with runner := none, runnerEpoch := none } } :=
      .of_same (s := { s with
        trace := .stopped runner ::
          ((if s.chat.inTurn then [Obs.interrupted runner] else []) ++ s.trace)
        chat := { s.chat with runner := none } }) rfl rfl rfl rfl
    exact put.crewed interrupted.stop.crewed

theorem closeTurn_crewed [Host] (h : Crewed stays s) (provider : String) (extra : Fields)
    (retry : Bool) :
    Lib.wp (closeTurn provider extra retry) (fun _ t => Crewed stays t ∧ t.chat.runner = none)
      (fun _ t => Ashore stays t) s := by
  unfold closeTurn
  rw [wp_bind]
  refine wp_mono (putDown_crewed h) ?_ fun _ _ => id
  rintro _ t ⟨ht, free⟩
  refine wp_mono ((?_ : (unmoving stays).Holds _) t)
    (fun _ _ calm => ⟨calm.crewed ht, calm.runner.trans free⟩) fun _ _ ends => ends ht
  refine holds_bind (requeue_unmoved retry) fun _ => holds_bind Admits.holds_self fun c => ?_
  extract_lets rest
  have hrest : ∀ r, (unmoving stays).Holds (rest r) := fun _ =>
    holds_bind (change_unmoved fun _ => rfl) fun _ => change_unmoved fun _ => rfl
  refine holds_ite ?_ (hrest ⟨⟩)
  refine holds_bind (change_unmoved fun _ => rfl) fun _ => ?_
  exact holds_bind (record_unmoved _) fun _ => holds_bind (note_unmoved rfl rfl) hrest

/-- All that are parked are put down, where nobody is attached. -/
theorem Crewed.stopParked (h : Crewed stays s) (free : s.chat.runner = none) :
    Crewed stays { s with
        trace := ((s.chat.parked.map (·.2.runner)).map Obs.stopped).reverse ++ s.trace
        chat := { s.chat with parked := [] } } := by
  have all : s.chat.running = s.chat.parked.map (·.2.runner) := by simp [Chat.running, free]
  have stripped := h.aboard.strip (c := { s.chat with parked := [] }) free rfl
  rw [all] at stripped
  exact ⟨stripped.stopAll, h.loyal⟩

/-- Only a runner of the same provider, under the same configuration, is changed in place. -/
theorem wp_tunable (rung : Pick) : Lib.wp (tunable rung) (fun yes t => Unmoved s t ∧ (yes = true →
    ∃ current, s.chat.current = some current ∧ current.provider = rung.provider ∧
      current.config = s.chat.config)) (fun _ t => Crewed stays s → Ashore stays t) s := by
  unfold tunable
  rw [wp_bind, wp_self]
  split
  · exact ⟨.refl s, by rintro ⟨⟩⟩
  next current running =>
    rw [wp_bind]
    refine wp_mono (runnerAlive_unmoved s) (fun alive t calm => ?_) fun _ _ => id
    rw [wp_ite]
    refine ⟨fun _ => ⟨calm, fun yes => ?_⟩, fun _ => ⟨calm, by rintro ⟨⟩⟩⟩
    obtain ⟨provider, config, -⟩ := of_decide_eq_true yes
    exact ⟨current, running, provider, config⟩

theorem retuneInPlace_crews (rung : Pick) : (crewing stays).Holds (retuneInPlace rung) := by
  refine crews_of fun s crewed => ?_
  unfold retuneInPlace
  rw [wp_bind]
  refine wp_mono (wp_tunable rung) ?_ fun _ _ ends => ends crewed
  rintro yes t ⟨calm, same⟩
  have ht := calm.crewed crewed
  rw [wp_ite]
  refine ⟨fun able => ?_, fun _ => ht⟩
  obtain ⟨current, running, provider, config⟩ := same able
  have running : t.chat.current = some current := calm.current.trans running
  have config : current.config = t.chat.config := config.trans calm.config.symm
  rw [wp_bind, wp_self]
  split
  · exact ht
  next runner attached =>
    unfold retune
    rw [wp_bind, wp_bind, wp_asks, wp_bind, wp_note, wp_pure, wp_ite]
    have onBoard : runner ∈ t.board [] := Aboard.attached_board attached
    obtain ⟨signature, current_eq, tuned⟩ := ht.aboard.seat runner attached
    obtain rfl : current = signature := Option.some.inj (running.symm.trans current_eq)
    obtain ⟨named, fast, tells⟩ := tuned
    have only (other : Handle) (seated : t.chat.runner = some other) : other = runner :=
      Option.some.inj (seated.symm.trans attached)
    constructor
    · intro took
      rw [wp_bind, wp_change]
      have next : Crewed stays { t with
          trace := .retuned runner rung.model rung.effort true :: t.trace
          chat := { t.chat with current := some (t.chat.signature rung) } } := by
        refine ⟨ht.aboard.retune onBoard _ _ true rfl rfl ?_ fun _ => ?_, ht.loyal⟩
        · intro other seated
          obtain rfl := only other seated
          refine ⟨_, rfl, provider.symm.trans named, fast, ?_⟩
          simp [told, tells, config, Chat.signature]
        · exact (ht.aboard.lift attached).apart_lot
      rw [took]
      refine Crewed.wp ?_ (crews_of_unmoved ?_)
      · exact ⟨next.aboard.same rfl rfl rfl, next.loyal⟩
      · exact holds_bind (record_unmoved _) fun _ => holds_bind refresh_unmoved fun _ => holds_pure _
    · intro refused
      rw [Bool.eq_false_of_not_eq_true refused]
      have next : Aboard stays [] { t with
          trace := .retuned runner rung.model rung.effort false :: t.trace } := by
        refine ht.aboard.retune onBoard _ _ false rfl rfl ?_ (by rintro ⟨⟩)
        intro other seated
        obtain rfl := only other seated
        exact ⟨current, running, named, fast, by simpa [told] using tells⟩
      exact ⟨next.same rfl rfl rfl, ht.loyal⟩

theorem dismiss_crewed {runner : Handle} {signature : Signature} {config : Config}
    (h : Holding stays runner signature config s) :
    Lib.wp (dismiss runner) (fun _ t => Berth stays [] config t) (fun _ t => Ashore stays t) s := by
  unfold dismiss
  rw [wp_bind, wp_self]
  extract_lets stopping going
  have onward {u : Conf} (hu : Holding stays runner signature config u) :
      Lib.wp (going ⟨⟩) (fun _ t => Berth stays [] config t) (fun _ t => Ashore stays t) u := by
    refine hu.wp_asks fun native v hv => ?_
    rw [wp_ite]
    constructor
    · intro _
      rw [wp_bind]
      refine wp_mono (hv.tryCommit _) (fun bound w calm => ?_) fun _ _ => id
      split
      · exact (hv.calm calm).stop
      · exact (hv.calm calm).wp_stop fun x hx _ => hx.crewed.aboard.abandoned _ _ _
    · exact fun _ => hv.stop
  rw [wp_ite]
  constructor
  · exact fun _ => h.wp_note rfl rfl fun t => onward
  · exact fun _ => onward h

theorem release_crewed (h : Crewed stays s) :
    Lib.wp release (fun _ t => Crewed stays t ∧ t.chat.runner = none) (fun _ t => Ashore stays t) s := by
  unfold release
  rw [wp_bind, wp_self]
  split
  next runner attached =>
    obtain ⟨signature, -, held⟩ := h.lift attached
    rw [wp_bind, wp_change]
    exact wp_mono (dismiss_crewed held) (fun _ _ ht => ⟨ht.crewed, ht.free⟩) fun _ _ => id
  next free => exact ⟨h, free⟩

/-- A conductor that shuts down puts every runner down. -/
theorem shutdown_crewed (h : Crewed stays s) :
    Lib.wp shutdown (fun _ t => Crewed stays t ∧ t.chat.running = []) (fun _ t => Ashore stays t) s := by
  unfold shutdown
  rw [wp_bind, wp_change, wp_bind]
  have calm : Unmoved s { s with chat := { s.chat with stopping := true } } := .of_same rfl rfl rfl rfl
  refine wp_mono (release_crewed (calm.crewed h)) ?_ fun _ _ => id
  rintro _ t ⟨ht, free⟩
  rw [wp_bind, wp_self, wp_bind, wp_change, wp_bind, wp_stopAll]
  exact ⟨ht.stopParked free, by simp [Chat.running, free]⟩

section
variable [Host]

theorem closeTurn_crews (provider : String) (extra : Fields) (retry : Bool) :
    (crewing stays).Holds (closeTurn provider extra retry) :=
  crews_of fun _ crewed =>
    wp_mono (closeTurn_crewed crewed provider extra retry) (fun _ _ ht => ht.1) fun _ _ => id

theorem startClean_crews : (crewing stays).Holds startClean := by
  refine crews_of fun s crewed => ?_
  unfold startClean
  rw [wp_bind, wp_self, wp_bind]
  refine wp_mono (closeTurn_crewed crewed _ _ _) ?_ fun _ _ => id
  rintro _ t ⟨ht, free⟩
  rw [wp_bind, wp_self, wp_bind, wp_change, wp_stopAll]
  exact ht.stopParked free

theorem failed_crews (provider kind : String) : (crewing stays).Holds (failed provider kind) := by
  unfold failed
  refine holds_bind Admits.holds_self fun c => holds_bind (closeTurn_crews _ _ _) fun _ => ?_
  refine holds_ite (holds_pure _) (holds_ite (holds_bind (sideline_crews _ _) fun left => ?_) ?_)
  · exact holds_ite (holds_pure _) (holds_pure _)
  · exact holds_pure _

theorem unauthenticated_crews (provider : String) :
    (crewing stays).Holds (unauthenticated provider) := by
  unfold unauthenticated
  refine holds_bind Admits.holds_self fun c => holds_bind (closeTurn_crews _ _ _) fun _ => ?_
  refine holds_ite (holds_pure _) (holds_ite (holds_pure _) ?_)
  refine holds_bind (crews_of_unmoved (commit_unmoved _ _)) fun _ => ?_
  refine holds_bind (crews_of_unmoved (change_unmoved fun _ => rfl)) fun _ => ?_
  refine holds_bind (movedOn_crews _ _) fun _ => ?_
  exact holds_bind (crews_of_unmoved anyoneLeft_unmoved) fun _ => holds_ite (holds_pure _) (holds_pure _)

theorem recoveryMessage_crews (stage : RecoveryStage) (text : String) (fresh : Bool) :
    (crewing stays).Holds (recoveryMessage stage text fresh) := by
  unfold recoveryMessage
  refine holds_ite (holds_bind startClean_crews fun _ => ?_) ?_
  · exact holds_bind (crews_of_unmoved (queueRecovery_unmoved _ _ _)) fun _ => holds_pure _
  · exact holds_bind (crews_of_unmoved (queueRecovery_unmoved _ _ _)) fun _ => holds_pure _

theorem recoveryFailed_crews (why : String) : (crewing stays).Holds (recoveryFailed why) := by
  unfold recoveryFailed
  refine holds_bind Admits.holds_self fun c => holds_bind (closeTurn_crews _ _ _) fun _ => ?_
  refine holds_bind (crews_of_unmoved (saveRecovery_unmoved _ _ _)) fun _ => ?_
  refine holds_bind (crews_of_unmoved (record_unmoved _)) fun _ => ?_
  exact holds_bind (crews_of_unmoved refresh_unmoved) fun _ => holds_pure _

theorem notStarted_crews (why err : String) (next : List Call) :
    (crewing stays).Holds (notStarted why err next) := by
  unfold notStarted
  refine holds_bind (crews_of_unmoved rung_unmoved) fun answer => ?_
  refine holds_bind Admits.holds_self fun c => holds_ite ?_ ?_
  · exact holds_bind (crews_of_unmoved (blocked_unmoved _)) fun _ => holds_pure _
  · refine holds_bind (crews_of_unmoved (record_unmoved _)) fun _ => ?_
    refine holds_bind (sideline_crews _ _) fun left => ?_
    exact holds_ite (holds_pure _) (holds_pure _)

theorem attemptReplace_crews (rung : Pick) (why : String) (next : List Call) :
    (crewing stays).Holds (attemptReplace rung why next) := by
  unfold attemptReplace
  refine holds_bind (replace_crews rung) fun answer => ?_
  split
  · exact holds_pure _
  · exact notStarted_crews _ _ _

theorem apply_crews (changes : List Change) : (crewing stays).Holds (apply changes) := by
  have set_ {key : String} {value : Value} {action : String} {f : Chat → Chat} {x : String × Fields}
      (runner : ∀ c, (f c).runner = c.runner) (parked : ∀ c, (f c).parked = c.parked)
      (current : ∀ c, (f c).current = c.current) : (crewing stays).Holds (do
        saveSetting key value action
        change f
        return x) :=
    holds_bind (crews_of_unmoved (commit_unmoved _ _)) fun _ =>
      holds_bind (change_crews runner parked current) fun _ => holds_pure _
  have change_ (change : Change) : (crewing stays).Holds (applyChange change) := by
    unfold applyChange
    cases change with
    | cwd path =>
      exact holds_bind Admits.holds_self fun _ => set_ (fun _ => rfl) (fun _ => rfl) fun _ => rfl
    | _ => exact set_ (fun _ => rfl) (fun _ => rfl) fun _ => rfl
  cases changes with
  | nil => exact holds_pure _
  | cons change rest =>
    unfold apply
    refine holds_bind (change_ change) fun what => ?_
    refine holds_bind (crews_of_unmoved (record_unmoved _)) fun _ => ?_
    exact holds_bind (crews_of_unmoved refresh_unmoved) fun _ => holds_pure _

theorem attempt_crews (why : String) (next : List Call) : (crewing stays).Holds (attempt why next) := by
  unfold attempt
  refine holds_bind (crews_of_unmoved rung_unmoved) fun answer => ?_
  split
  · exact holds_bind (retuneInPlace_crews _) fun _ => holds_ite (holds_pure _) (holds_pure _)
  · exact notStarted_crews _ _ _

/-- Every call leaves every runner in its place. -/
theorem run_crews (call : Call) : (crewing stays).Holds (run call) := by
  cases call with
  | launchOnce => exact crews_of_unmoved launchOnce_unmoved
  | enqueue text => exact crews_of_unmoved (enqueue_unmoved text)
  | dispatchQueued => exact crews_of_unmoved dispatchQueued_unmoved
  | flush => exact crews_of_unmoved flush_unmoved
  | deliver => exact crews_of_unmoved deliver_unmoved
  | refused why => exact crews_of_unmoved (refused_unmoved why)
  | attempt why next => exact attempt_crews why next
  | replace rung why next => exact attemptReplace_crews rung why next
  | absorb epoch report => exact crews_of_unmoved (absorb_unmoved epoch report)
  | unauthenticated provider => exact unauthenticated_crews provider
  | failed provider kind => exact failed_crews provider kind
  | recoverContext delivered => exact crews_of_unmoved (recoverContext_unmoved delivered)
  | startHandoff => exact holds_bind Admits.holds_self fun _ => holds_pure _
  | recoveryMessage stage text fresh => exact recoveryMessage_crews stage text fresh
  | recoveryEnded end_ => exact crews_of_unmoved (recoveryEnded_unmoved end_)
  | recoveryFailed why => exact recoveryFailed_crews why
  | resumeRecovery => exact crews_of_unmoved resumeRecovery_unmoved
  | finishTurn => exact crews_of_unmoved finishTurn_unmoved
  | settleIdle => exact crews_of_unmoved settleIdle_unmoved
  | apply changes => exact apply_crews changes
  | shutdown =>
    exact crews_of fun _ crewed => wp_mono (shutdown_crewed crewed) (fun _ _ ht => ht.1) fun _ _ => id
  | stopped => exact crews_of_unmoved stopped_unmoved
  | publish => exact crews_of_unmoved publish_unmoved

end
end crews
end SiliconOmni
