import SiliconOmni.Chat.Runs

/-! Who may be handed the conversation: the runner attached, the runners parked, and the dial. -/
namespace SiliconOmni
open Lib Frame

/-- What was handed over, if it was conversation, went to a provider on the dial of that moment. -/
def Obs.authorized : Obs → Bool
  | sent runner _ _ dial | started runner _ _ _ _ dial | caughtUp runner _ _ dial =>
      dial.contains runner.name
  | _ => true

/-- What a watch over the conductor lets it do: no conversation goes off the dial, and no compaction
is asked for unless the watch `compacts`. -/
def Obs.passes (compacts : Bool) : Obs → Bool
  | compacted _ _ => compacts
  | o => o.authorized

theorem Obs.passes_of_isStop {o : Obs} (h : o.isStop) (compacts : Bool) : o.passes compacts := by
  cases o <;> first | rfl | cases h

theorem Obs.authorized_of_passes {o : Obs} {compacts : Bool} (h : o.passes compacts) :
    o.authorized := by
  cases o <;> first | rfl | exact h

/-- The attached runner and the parked ones, and the dial. -/
structure Wheel where
  runner : Option Handle
  current : Option Signature
  parked : Entries Parked
  providers : List String
  benched : List String

def Chat.wheel (c : Chat) : Wheel where
  runner := c.runner
  current := c.current
  parked := c.parked
  providers := c.providers
  benched := c.benched

/-- The providers of a list that are not set aside. -/
def dialed (providers benched : List String) : List String :=
  providers.filter fun provider => !benched.contains provider

/-- The attached runner is of the provider that is current, a parked one of the provider it is
parked under, and the dial is as `D` says. -/
structure Wheel.Sound (w : Wheel) (D : List String → List String → Prop) : Prop where
  seat : ∀ runner, w.runner = some runner → ∃ signature, w.current = some signature ∧
    signature.provider = runner.name
  lot : ∀ entry ∈ w.parked, entry.2.runner.name = entry.1
  dial : D w.providers w.benched

/-- A watch over what happens from some moment on. -/
structure Watch where
  /-- What had happened by then. -/
  past : List Obs
  compacts : Bool

/-- The watch over all that ever happened. -/
def Watch.whole : Watch := { past := [], compacts := true }

/-- Nothing happened that the watch does not let happen. -/
def Conf.Guarded (s : Conf) (w : Watch) : Prop :=
  ∃ os, s.trace = os ++ w.past ∧ ∀ o ∈ os, o.passes w.compacts

/-- Nothing was handed to anyone off the dial, and the runners are where they belong. -/
structure Routed (w : Watch) (D : List String → List String → Prop) (s : Conf) : Prop where
  trace : s.Guarded w
  wheel : s.chat.wheel.Sound D

/-- The steps that keep that up; one that halts keeps what was handed over. -/
def routing (w : Watch) (D : List String → List String → Prop) : Frame Conf where
  live s t := Routed w D s → Routed w D t
  halted s t := Routed w D s → t.Guarded w
  refl _ := id
  trans h h' hs := h' (h hs)
  trans_halted h h' hs := h' (h hs)

section primitives
variable {α β : Type} {w : Watch} {D : List String → List String → Prop} {s t : Conf}

theorem Conf.Guarded.same (h : s.Guarded w) (trace : t.trace = s.trace) : t.Guarded w := by
  unfold Conf.Guarded
  rw [trace]
  exact h

theorem Routed.same (h : Routed w D s) (wheel : t.chat.wheel = s.chat.wheel)
    (trace : t.trace = s.trace) : Routed w D t :=
  ⟨h.trace.same trace, wheel ▸ h.wheel⟩

theorem guarded_append {os : List Obs} (hs : s.Guarded w) (hos : ∀ o ∈ os, o.passes w.compacts)
    (trace : t.trace = os ++ s.trace) : t.Guarded w := by
  obtain ⟨seen, hseen, hpass⟩ := hs
  refine ⟨os ++ seen, by rw [trace, hseen, List.append_assoc], ?_⟩
  intro o ho
  rcases List.mem_append.mp ho with ho | ho
  · exact hos o ho
  · exact hpass o ho

theorem Routed.note (h : Routed w D s) {o : Obs} (ho : o.passes w.compacts)
    (wheel : t.chat.wheel = s.chat.wheel) (trace : t.trace = o :: s.trace) : Routed w D t := by
  have added : t.trace = [o] ++ s.trace := trace
  exact ⟨guarded_append h.trace (by simpa using ho) added, wheel ▸ h.wheel⟩

theorem Remains.guarded {disk : Disk} (h : Remains s t disk) (hs : s.Guarded w) : t.Guarded w := by
  obtain ⟨stops, htrace, hstops⟩ := h.trace
  exact guarded_append hs (fun o ho => Obs.passes_of_isStop (hstops o ho) _) htrace

/-- What keeps the routing up, started where it is up. -/
theorem wp_routed {m : Conductor α} {Q : α → Conf → Prop} {H : Halt → Conf → Prop}
    (hm : (routing w D).Holds m) (h : Routed w D s) (hQ : ∀ a t, Routed w D t → Q a t)
    (hH : ∀ e t, t.Guarded w → H e t) : wp m Q H s :=
  Frame.Holds.wp hm (fun a t ht => hQ a t (ht h)) fun e t ht => hH e t (ht h)

theorem self_routed : (routing w D).Holds self := fun _ => id

theorem asks_routed (question : Env → ℕ → α) : (routing w D).Holds (asks question) :=
  fun _ h => h.same rfl rfl

theorem newId_routed [Host] : (routing w D).Holds newId := fun _ h => h.same rfl rfl

theorem note_routed {o : Obs} (ho : o.passes w.compacts) : (routing w D).Holds (note o) :=
  fun _ h => h.note ho rfl rfl

theorem notes_routed {os : List Obs} (hos : ∀ o ∈ os, o.passes w.compacts) :
    (routing w D).Holds (notes os) :=
  fun _ h => ⟨guarded_append h.trace hos rfl, h.wheel⟩

theorem stop_routed (runner : Handle) : (routing w D).Holds (stop runner) := note_routed rfl

theorem stopAll_routed (runners : List Handle) : (routing w D).Holds (stopAll runners) := by
  refine notes_routed ?_
  intro o ho
  obtain ⟨_, _, rfl⟩ := List.mem_map.mp (List.mem_reverse.mp ho)
  rfl

theorem change_routed {f : Chat → Chat} (hf : ∀ c, (f c).wheel = c.wheel) :
    (routing w D).Holds (change f) :=
  fun _ h => h.same (hf _) rfl

/-- A change of the wheel itself. -/
theorem turn_routed {f : Chat → Chat} (hf : ∀ c, c.wheel.Sound D → (f c).wheel.Sound D) :
    (routing w D).Holds (change f) :=
  fun _ h => ⟨h.trace, hf _ h.wheel⟩

theorem settle_routed (f : Snapshot → Snapshot) : (routing w D).Holds (settle f) :=
  change_routed fun _ => rfl

theorem refresh_routed : (routing w D).Holds refresh := change_routed fun _ => rfl

theorem Conf.abandoned_guarded (s : Conf) {calls : ℕ} {action error : String} (h : s.Guarded w) :
    (s.abandoned calls action error).Guarded w :=
  (s.abandoned_remains _ _ _).guarded h

theorem persistenceFailed_routed (action error : String) :
    (routing w D).Holds (persistenceFailed action error : Conductor α) := by
  intro s
  rw [wp_persistenceFailed]
  exact fun h => s.abandoned_guarded h.trace

theorem tryCommit_routed (edit : MetaData → MetaData) : (routing w D).Holds (tryCommit edit) := by
  intro s
  apply wp_tryCommit
  · exact fun calls h => h.same rfl rfl
  · exact fun why calls h => h.same rfl rfl
  · exact fun t ht h => ht.guarded h.trace

theorem commit_routed (action : String) (edit : MetaData → MetaData) :
    (routing w D).Holds (commit action edit) := by
  unfold commit
  refine holds_bind (tryCommit_routed edit) fun answer => ?_
  split
  · exact holds_pure _
  · exact persistenceFailed_routed _ _

theorem record_routed (event : Event) : (routing w D).Holds (record event) := by
  intro s
  apply wp_record
  · exact fun h => h.same rfl rfl
  · rintro e t (ht | ht) h
    · exact ht.guarded h.trace
    · exact ht.guarded h.trace

theorem blocked_routed (why : String) : (routing w D).Holds (blocked why) := by
  unfold blocked
  exact holds_bind (record_routed _) fun _ => settle_routed _

theorem publish_routed : (routing w D).Holds publish := by
  intro s h
  refine ⟨guarded_append h.trace ?_ rfl, h.wheel⟩
  intro o ho
  obtain ⟨_, _, rfl⟩ := List.mem_map.mp (List.mem_reverse.mp ho)
  rfl

end primitives

section runners
variable {w : Watch} {D : List String → List String → Prop} {s : Conf} {H : Halt → Conf → Prop}

theorem runnerAlive_routed : (routing w D).Holds runnerAlive := by
  unfold runnerAlive
  refine holds_bind self_routed fun c => ?_
  split
  · exact asks_routed _
  · exact holds_pure _

theorem retune_routed (runner : Handle) (rung : Pick) :
    (routing w D).Holds (retune runner rung) := by
  unfold retune
  refine holds_bind (asks_routed _) fun took => ?_
  exact holds_bind (note_routed rfl) fun _ => holds_pure _

theorem rememberRunnerTurn_routed : (routing w D).Holds rememberRunnerTurn :=
  change_routed fun _ => rfl

theorem recordLaunch_routed (rung : Pick) (native : String) (fresh : Bool) :
    (routing w D).Holds (recordLaunch rung native fresh) := by
  unfold recordLaunch
  refine holds_bind (record_routed _) fun _ => holds_ite ?_ (holds_pure _)
  exact holds_bind (record_routed _) fun _ => holds_pure _

theorem recordSwitch_routed (previous : String) (rung : Pick) :
    (routing w D).Holds (recordSwitch previous rung) := by
  unfold recordSwitch
  refine holds_ite ?_ (holds_pure _)
  refine holds_bind (change_routed fun _ => rfl) fun _ => ?_
  refine holds_ite ?_ (holds_pure _)
  exact holds_bind (record_routed _) fun _ => holds_pure _

theorem markTold_routed : (routing w D).Holds markTold := by
  unfold markTold
  refine holds_bind self_routed fun c => ?_
  split
  · exact commit_routed _ _
  · exact holds_pure _

/-- A runner of the provider it is brought up for becomes the attached one. -/
theorem adopt_routed {runner : Handle} {rung : Pick} (epoch : Option ℕ) (fresh : Bool)
    (name : runner.name = rung.provider) : (routing w D).Holds (adopt runner epoch rung fresh) := by
  unfold adopt
  refine holds_bind (asks_routed _) fun native => holds_bind (asks_routed _) fun seeded => ?_
  refine holds_bind (note_routed rfl) fun _ => holds_bind (note_routed rfl) fun _ => ?_
  have rest : (routing w D).Holds (do
      commit "saving a provider session id" (·.bind rung.provider native)
      if seeded then
        let seq := (← self).store.seq
        commit "saving a provider watermark" (·.markSynced rung.provider seq)
      recordLaunch rung native fresh
      refresh) := by
    refine holds_bind (commit_routed _ _) fun _ => ?_
    extract_lets rest
    have hrest : ∀ r, (routing w D).Holds (rest r) := fun r =>
      holds_bind (recordLaunch_routed _ _ _) fun _ => refresh_routed
    refine holds_ite (holds_bind self_routed fun c => ?_) (hrest ⟨⟩)
    exact holds_bind (commit_routed _ _) fun _ => hrest ⟨⟩
  intro s
  -- between the runner and its signature the seat is not what it should be
  rw [wp_bind, wp_change, wp_bind]
  unfold rememberRunnerTurn
  rw [wp_change, wp_bind, wp_change]
  have seated (h : Routed w D s) (u : Conf) (trace : u.trace = s.trace)
      (runner_eq : u.chat.runner = some runner)
      (current : u.chat.current.map (·.provider) = some rung.provider)
      (parked : u.chat.parked = s.chat.parked) (providers : u.chat.providers = s.chat.providers)
      (benched : u.chat.benched = s.chat.benched) : Routed w D u := by
    refine ⟨h.trace.same trace, ?_, ?_, ?_⟩
    · intro r hr
      obtain rfl := Option.some.inj (runner_eq.symm.trans hr)
      obtain ⟨signature, hsome, hprovider⟩ := Option.map_eq_some_iff.mp current
      exact ⟨signature, hsome, hprovider.trans name.symm⟩
    · intro entry hentry
      change entry ∈ u.chat.parked at hentry
      rw [parked] at hentry
      exact h.wheel.lot entry hentry
    · show D u.chat.providers u.chat.benched
      rw [providers, benched]
      exact h.wheel.dial
  refine Frame.Holds.wp rest ?_ ?_
  · exact fun _ t ht hs => ht (seated hs _ rfl rfl rfl rfl rfl rfl)
  · exact fun _ t ht hs => ht (seated hs _ rfl rfl rfl rfl rfl rfl)

/-- What is parked stays under its own name. -/
theorem insert_lot {parked : Entries Parked} {p : Parked}
    (h : ∀ entry ∈ parked, entry.2.runner.name = entry.1) :
    ∀ entry ∈ Entries.insert parked p.runner.name p, entry.2.runner.name = entry.1 := by
  intro entry member
  rcases Entries.mem_insert member with rfl | member
  · rfl
  · exact h entry member

/-- Parked runners may leave. -/
theorem unparked_routed (key : String) :
    (routing w D).Holds (change fun c => { c with parked := c.parked.remove key }) :=
  turn_routed fun _ h => ⟨h.seat, fun entry he => h.lot entry (List.mem_filter.mp he).1, h.dial⟩

theorem unmanned_routed : (routing w D).Holds (change fun c => { c with runner := none }) :=
  turn_routed fun _ h => ⟨by rintro _ ⟨⟩, h.lot, h.dial⟩

theorem emptied_routed : (routing w D).Holds (change fun c => { c with parked := [] }) :=
  turn_routed fun _ h => ⟨h.seat, (by rintro _ ⟨⟩), h.dial⟩

theorem park_routed (runner : Handle) : (routing w D).Holds (park runner) := by
  unfold park
  refine holds_bind self_routed fun c => ?_
  refine holds_bind (change_routed fun _ => rfl) fun _ => ?_
  refine holds_bind (asks_routed _) fun native => ?_
  refine holds_bind self_routed fun d => holds_ite ?_ ?_
  · refine holds_bind (stop_routed _) fun _ => ?_
    refine holds_bind (tryCommit_routed _) fun bound => ?_
    refine holds_bind (tryCommit_routed _) fun marked => ?_
    split
    · refine holds_bind (unparked_routed _) fun _ => ?_
      exact holds_bind (record_routed _) fun _ => holds_pure _
    · exact persistenceFailed_routed _ _
    · exact persistenceFailed_routed _ _
  · extract_lets rest
    have hrest : ∀ r, (routing w D).Holds (rest r) := by
      intro r
      refine holds_bind self_routed fun d => holds_bind (asks_routed _) fun parkable => ?_
      split
      · refine holds_bind (note_routed rfl) fun _ => turn_routed fun chat h => ?_
        refine ⟨h.seat, ?_, h.dial⟩
        exact insert_lot (p := { runner, epoch := _, signature := _, synced := _ }) h.lot
      · exact stop_routed _
    refine holds_ite ?_ (hrest ⟨⟩)
    refine holds_bind (tryCommit_routed _) fun bound => ?_
    split
    · exact hrest ⟨⟩
    · refine holds_bind (stop_routed _) fun _ => ?_
      exact holds_bind (persistenceFailed_routed _ _) fun _ => hrest ⟨⟩

/-- A runner taken back is of the provider asked for. -/
theorem unpark_routed {provider : String} (on : ∀ ps bs, D ps bs → provider ∈ dialed ps bs)
    (h : Routed w D s) :
    wp (unpark provider) (fun kept t => Routed w D t ∧ ∀ r ∈ kept, r.1.name = provider)
      (fun _ t => t.Guarded w) s := by
  unfold unpark
  rw [wp_bind, wp_self]
  split
  · exact ⟨h, by rintro _ ⟨⟩⟩
  rename_i parked hlookup
  have named : parked.runner.name = provider := h.wheel.lot _ (Entries.mem_of_lookup hlookup)
  rw [wp_bind]
  refine wp_routed (unparked_routed _) h (fun _ t ht => ?_) fun _ _ => id
  rw [wp_bind]
  refine wp_routed (asks_routed _) ht (fun alive u hu => ?_) fun _ _ => id
  cases alive
  · exact ⟨hu, by rintro _ ⟨⟩⟩
  simp only [↓reduceIte, wp_bind, wp_self, wp_asks, wp_note]
  have told : Obs.passes w.compacts (.caughtUp parked.runner
      (u.chat.historyFor provider (parked.synced + 1) true)
      (u.env.catchUp u.calls parked.runner) u.chat.usable) := by
    have member : provider ∈ u.chat.usable := on _ _ hu.wheel.dial
    simpa [Obs.passes, Obs.authorized, named] using member
  have hv := hu.note (t := { u with calls := u.calls + 1, trace := _ :: u.trace }) told rfl rfl
  rw [wp_ite]
  constructor
  · intro _
    simp only [wp_bind, wp_asks, wp_note]
    have hw := hv.note (t := { u with
      calls := u.calls + 1 + 1
      trace := .seeded parked.runner (u.env.seeded (u.calls + 1) parked.runner) :: _ }) rfl rfl rfl
    rw [wp_ite]
    constructor
    · intro _
      simp only [wp_bind, wp_self]
      refine wp_routed (tryCommit_routed _) hw (fun answer x hx => ?_) fun _ _ => id
      split
      · exact ⟨hx, fun r hr => by obtain rfl := Option.some.inj hr; exact named⟩
      · simp only [wp_bind]
        refine wp_routed (stop_routed _) hx (fun _ y hy => ?_) fun _ _ => id
        rw [wp_bind, wp_persistenceFailed]
        exact y.abandoned_guarded hy.trace
    · exact fun _ => ⟨hw, fun r hr => by obtain rfl := Option.some.inj hr; exact named⟩
  · intro _
    rw [wp_bind]
    exact wp_routed (stop_routed _) hv (fun _ x hx => ⟨hx, by rintro _ ⟨⟩⟩) fun _ _ => id

theorem takeParked_routed {provider : String} (on : ∀ ps bs, D ps bs → provider ∈ dialed ps bs)
    (wanted : Signature) (h : Routed w D s) :
    wp (takeParked provider wanted) (fun kept t => Routed w D t ∧ ∀ r ∈ kept, r.1.name = provider)
      (fun _ t => t.Guarded w) s := by
  unfold takeParked
  rw [wp_bind, wp_self]
  split
  · exact ⟨h, by rintro _ ⟨⟩⟩
  rw [wp_ite]
  constructor
  · intro _
    rw [wp_bind]
    refine wp_routed (unparked_routed _) h (fun _ t ht => ?_) fun _ _ => id
    rw [wp_bind]
    exact wp_routed (stop_routed _) ht (fun _ u hu => ⟨hu, by rintro _ ⟨⟩⟩) fun _ _ => id
  · intro _
    simp only [wp_bind]
    refine wp_mono (unpark_routed on h) (fun kept t ht => ⟨ht.1, ?_⟩) fun _ _ => id
    intro r hr
    obtain ⟨⟨runner, epoch⟩, hmem, rfl⟩ := Option.mem_map.mp hr
    exact ht.2 _ hmem

section
variable [Host]

/-- A runner is started, and told the conversation, only for a provider on the dial. -/
theorem bringUp_routed {rung : Pick} (on : ∀ ps bs, D ps bs → rung.provider ∈ dialed ps bs)
    (config : Config) (nativeId : String) (since : ℤ) (h : Routed w D s) :
    wp (bringUp rung config nativeId since)
      (fun up t => Routed w D t ∧ ∀ r, up = .ok r → r.1.name = rung.provider)
      (fun _ t => t.Guarded w) s := by
  unfold bringUp
  rw [wp_bind, wp_self, wp_bind]
  refine wp_routed (change_routed fun _ => rfl) h (fun _ t ht => ?_) fun _ _ => id
  rw [wp_bind, wp_get, wp_ite]
  constructor
  · intro _
    simp only [wp_bind, wp_modifyGet, wp_self, wp_asks]
    have member : rung.provider ∈ t.chat.usable := on _ _ ht.wheel.dial
    split
    · refine ⟨ht.note (by simpa [Obs.passes, Obs.authorized] using member) rfl rfl, ?_⟩
      intro r hr
      cases hr
      rfl
    · exact ⟨ht.note (by simpa [Obs.passes, Obs.authorized] using member) rfl rfl, by rintro _ ⟨⟩⟩
  · exact fun _ => ⟨ht, by rintro _ ⟨⟩⟩

theorem launchFresh_routed {rung : Pick} (on : ∀ ps bs, D ps bs → rung.provider ∈ dialed ps bs)
    (native : Native) (h : Routed w D s) :
    wp (launchFresh rung native) (fun _ t => Routed w D t) (fun _ t => t.Guarded w) s := by
  unfold launchFresh
  rw [wp_bind, wp_self, wp_bind]
  refine wp_mono (bringUp_routed on _ _ _ h) (fun up t ht => ?_) fun _ _ => id
  split
  · exact ht.1
  rename_i runner epoch
  have name : runner.name = rung.provider := ht.2 _ rfl
  have adopted {u : Conf} (r : Handle) (e : ℕ) (fresh : Bool) (hr : r.name = rung.provider)
      (hu : Routed w D u) :
      wp (do adopt r (some e) rung fresh; return (Except.ok () : Except String Unit))
        (fun _ t => Routed w D t) (fun _ t => t.Guarded w) u :=
    wp_routed (holds_bind (adopt_routed _ _ hr) fun _ => holds_pure _) hu (fun _ _ => id)
      fun _ _ => id
  rw [wp_bind]
  refine wp_routed (asks_routed _) ht.1 (fun known u hu => ?_) fun _ _ => id
  rw [wp_ite]
  constructor
  · intro _
    rw [wp_bind]
    refine wp_routed (stop_routed _) hu (fun _ v hv => ?_) fun _ _ => id
    rw [wp_bind]
    refine wp_routed (asks_routed _) hv (fun now v hv => ?_) fun _ _ => id
    rw [wp_bind]
    refine wp_routed (record_routed _) hv (fun _ v hv => ?_) fun _ _ => id
    rw [wp_bind]
    refine wp_mono (bringUp_routed on _ _ _ hv) (fun again w hw => ?_) fun _ _ => id
    split
    · exact hw.1
    · exact adopted _ _ _ (hw.2 _ rfl) hw.1
  · exact fun _ => adopted _ _ _ name hu

theorem launch_routed {rung : Pick} (on : ∀ ps bs, D ps bs → rung.provider ∈ dialed ps bs)
    (h : Routed w D s) :
    wp (launch rung) (fun _ t => Routed w D t) (fun _ t => t.Guarded w) s := by
  unfold launch
  rw [wp_bind, wp_self, wp_bind]
  refine wp_mono (takeParked_routed on _ h) (fun kept t ht => ?_) fun _ _ => id
  split
  next runner epoch matches_ =>
    have name : runner.name = rung.provider := ht.2 _ rfl
    extract_lets rest
    have hrest (usable : Bool) (u : Conf) (hu : Routed w D u) :
        wp (rest usable) (fun _ t => Routed w D t) (fun _ t => t.Guarded w) u := by
      show wp (ite _ _ _) _ _ _
      rw [wp_ite]
      constructor
      · intro _
        rw [wp_bind]
        exact wp_routed (adopt_routed _ _ name) hu (fun _ _ => id) fun _ _ => id
      · intro _
        rw [wp_bind]
        refine wp_routed (stop_routed _) hu (fun _ v hv => ?_) fun _ _ => id
        exact launchFresh_routed on _ hv
    rw [wp_ite]
    constructor
    · intro _
      rw [wp_bind, wp_pure]
      exact hrest _ _ ht.1
    · intro _
      rw [wp_bind]
      exact wp_routed (retune_routed _ _) ht.1 (fun took u hu => hrest took u hu) fun _ _ => id
  next => exact launchFresh_routed on _ ht.1

theorem replace_routed {rung : Pick} (on : ∀ ps bs, D ps bs → rung.provider ∈ dialed ps bs)
    (h : Routed w D s) :
    wp (replace rung) (fun _ t => Routed w D t) (fun _ t => t.Guarded w) s := by
  unfold replace
  rw [wp_bind, wp_self]
  extract_lets previous rest
  have hrest (u : Conf) (hu : Routed w D u) :
      wp (rest ⟨⟩) (fun _ t => Routed w D t) (fun _ t => t.Guarded w) u := by
    show wp (recordSwitch previous rung >>= fun _ => launch rung) _ _ _
    rw [wp_bind]
    refine wp_routed (recordSwitch_routed _ _) hu (fun _ v hv => ?_) fun _ _ => id
    exact launch_routed on hv
  split
  · rw [wp_bind]
    refine wp_routed unmanned_routed h (fun _ t ht => ?_) fun _ _ => id
    rw [wp_bind]
    exact wp_routed (park_routed _) ht (fun _ u hu => hrest u hu) fun _ _ => id
  · exact hrest _ h

end
end runners
end SiliconOmni
