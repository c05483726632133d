import SiliconOmni.Python.Pipeline

/-! A Chat that comes back: what its callbacks are given across disconnects, detaches and opens. -/
namespace SiliconOmni.Python

/-- The call of the daemon a thread is about to make, or waits for. -/
def Pc.call : Pc → Option ℕ
  | opening _ _ k .. | posting _ k | asking _ k .. => some k
  | _ => none

namespace Process
variable {s s' : Process} {t c g k : ℕ}

/-! ### An open from its call to its reply -/

theorem setPc_self (pc : Pc) : (s.setPc t pc).pc t = pc := Function.update_self ..

theorem setPc_of_ne {u : ℕ} (h : u ≠ t) (pc : Pc) : (s.setPc t pc).pc u = s.pc u :=
  Function.update_of_ne h ..

/-- Whether the thread would open the session, were it to take the lock. -/
def reopens (s : Process) : Bool := !s.finished && !(s.opened && s.connected)

/-- The events up to the cursor that no callback has been given. -/
def owed (s : Process) : List ℕ :=
  (List.range (s.seen + 1).toNat).filter fun seq =>
    s.first.any (· ≤ seq) && !(s.given.map Prod.snd).contains seq

/-- The connection, if it is alive, carries nothing of an earlier subscription. -/
def Quiet (s : Process) : Prop :=
  ∀ c, s.connection = some c → (s.links c).alive = true → (s.links c).Blank

/-- The range that is asked for follows what the callbacks were given; an explicit `start` is the
first that opens. -/
def Follows (s : Process) (since : ℤ) : Why → Prop
  | .start => s.first = none
  | _ => since = s.seen + 1 ∧ s.owed = []

theorem Resuming.follows {since : ℤ} {why : Why} (h : s.Resuming) (hfollows : s.Follows since why)
    {b : ℕ} (hb : s.first = some b) : since = s.due := by
  obtain ⟨hgiven, hseen⟩ := h.given b hb
  have hdue : s.due = b + s.given.length := by rw [due, hb]; rfl
  have key : since = s.seen + 1 ∧ s.owed = [] := by
    cases why with
    | start =>
      change s.first = none at hfollows
      rw [hb] at hfollows
      cases hfollows
    | send text => exact hfollows
    | refresh => exact hfollows
  obtain ⟨rfl, howed⟩ := key
  by_contra hne
  have hlt : (s.due : ℤ) < s.seen + 1 := by omega
  have hmem : s.due ∈ s.owed := by
    refine List.mem_filter.mpr ⟨List.mem_range.mpr (by omega), ?_⟩
    rw [hgiven, hb]
    simp [hdue]
  rw [howed] at hmem
  cases hmem

theorem link_cases (s : Process) : (∃ c, s.connection = some c ∧ (s.links c).alive = true ∧
    s.link = (s, c)) ∨ s.link = s.connect := by
  unfold link
  split
  · rename_i c hc
    split_ifs with halive
    · exact .inl ⟨c, hc, halive, rfl⟩
    · exact .inr rfl
  · exact .inr rfl

theorem Keeps.link : s.Keeps s.link.1 := by
  rcases s.link_cases with ⟨c, _, _, heq⟩ | heq
  · rw [heq]
    exact Keeps.quiet rfl le_rfl (fun _ h => .inl h) le_rfl le_rfl (fun _ _ _ _ _ _ _ h => h)
  · rw [heq]
    refine Keeps.quiet rfl (Nat.le_succ _) (fun c h => .inr ?_) le_rfl le_rfl
      (fun _ _ _ _ _ _ _ h => h)
    rw [← Option.some.inj h]
    exact Nat.lt_succ_self _

theorem under_eq_none {g : ℕ} {a : Option (ℕ × Frame)} (h : ∀ frame, a ≠ some (g, frame)) :
    under g a = none := by
  cases a with
  | none => rfl
  | some a =>
    have hne : a.1 ≠ g := by
      rintro rfl
      exact h a.2 rfl
    simp [under, hne]

/-- Nothing is before the dispatcher under a generation that is named nowhere. -/
theorem queue_of_not_names (h : ¬s.Names g) : s.queue g = [] := by
  have hcaller : under g (s.caller.bind Caller.arrived) = none := by
    refine under_eq_none fun frame hf => h (.inl ⟨frame, ?_⟩)
    obtain ⟨caller, hcaller, harrived⟩ := Option.bind_eq_some_iff.mp hf
    cases caller with
    | holding g' frame' =>
      obtain ⟨rfl, rfl⟩ := Prod.mk.inj (Option.some.inj harrived)
      exact hcaller
    | _ => cases harrived
  have hinbox : s.inbox.filterMap (under g) = [] := by
    refine List.filterMap_eq_nil_iff.mpr fun a ha => under_eq_none ?_
    rintro frame rfl
    exact h (.inr (.inl ⟨frame, ha⟩))
  rw [queue, hcaller, hinbox]
  rfl

/-- A listener for a new generation, and `open` asked of the daemon. -/
theorem Resuming.asked {since : ℤ} {why : Why} (h : s.Resuming) (hc : c < s.linksMade)
    (hblank : (s.links c).Blank) (hlock : s.lock = none)
    (hfollows : ∀ b, s.first = some b → since = s.due) :
    Resuming ({ s.setLink c { s.links c with listener := some s.generations } with
      generation := some s.generations, generations := s.generations + 1, calls := s.calls + 1
      lock := some t }.setPc t (.opening c s.generations s.calls since why .asked)) := by
  let link : Link := { s.links c with listener := some s.generations }
  have hnew : ¬s.Names s.generations := fun hnames => absurd (h.named _ hnames) (Nat.lt_irrefl _)
  have hqueue := queue_of_not_names hnew
  have hhand (d : ℕ) (frame : Frame) : (s.links d).hand ≠ some (s.generations, frame) :=
    fun hd => hnew (.inr (.inr (.inl ⟨d, .inr ⟨frame, hd⟩⟩)))
  have hreplied (k : ℕ) (snapshot : Option Snapshot) (hr : (s.setLink c link).Replied k snapshot) :
      s.Replied k snapshot := by
    rcases hr with hr | ⟨d, hr⟩
    · exact .inl hr
    · by_cases hd : d = c
      · subst hd
        rw [setLink_self] at hr
        exact .inr ⟨d, hr⟩
      · rw [setLink_of_ne hd] at hr
        exact .inr ⟨d, hr⟩
  constructor
  · rintro g (hg | hg | ⟨d, hg⟩ | hg)
    · exact Nat.lt_succ_of_lt (h.named g (.inl hg))
    · exact Nat.lt_succ_of_lt (h.named g (.inr (.inl hg)))
    · change ((s.setLink c link).links d).listener = some g ∨
        ∃ frame, ((s.setLink c link).links d).hand = some (g, frame) at hg
      by_cases hd : d = c
      · subst hd
        rw [setLink_self] at hg
        rcases hg with hg | hg
        · rw [← Option.some.inj hg]
          exact Nat.lt_succ_self _
        · exact Nat.lt_succ_of_lt (h.named g (.inr (.inr (.inl ⟨d, .inr hg⟩))))
      · rw [setLink_of_ne hd] at hg
        exact Nat.lt_succ_of_lt (h.named g (.inr (.inr (.inl ⟨d, hg⟩))))
    · rw [← Option.some.inj hg]
      exact Nat.lt_succ_self _
  · exact fun d hd => on_setLink (P := Link.Blank) link id d (h.blank d hd)
  · exact h.known
  · exact fun d => on_setLink (P := fun link => link.up = false → link.cursor = none) link id d
      (h.down d)
  · exact fun g hg => h.later g (Nat.le_of_succ_le hg)
  · exact fun k snapshot hr => Nat.lt_succ_of_lt (h.called k snapshot (hreplied k snapshot hr))
  · intro u c' g k' since' why' stage hpc
    by_cases hu : u = t
    · subst hu
      rw [setPc_self] at hpc
      cases hpc
      refine ⟨rfl, rfl, hc, Nat.lt_succ_self _, ?_⟩
      have horigin : s.origin s.generations = none := (h.later _ le_rfl).2
      have hpipe : (s.setLink c link).pipeline s.generations c = [] := by
        rw [pipeline_setLink, hqueue]
        simp [Link.coming, link, under_eq_none (hhand c), hblank.2]
      have hcursor : ((s.setLink c link).links c).cursor = none := by
        rw [setLink_self]
        exact hblank.1
      constructor
      · exact (h.later _ le_rfl).1
      · exact hfollows
      · refine fun _ => ⟨horigin, hcursor, ⟨fun d hd => ?_, 0, hpipe, fun seq hseq _ => ?_⟩, hpipe⟩
        · show ((s.setLink c link).links d).listener ≠ _ ∧
            ∀ frame, ((s.setLink c link).links d).hand ≠ _
          rw [setLink_of_ne hd]
          exact ⟨fun hl => hnew (.inr (.inr (.inl ⟨d, .inl hl⟩))), hhand d⟩
        · change ((s.setLink c link).links c).cursor = some seq at hseq
          rw [hcursor] at hseq
          cases hseq
      · intro n hn
        rw [show s.origin s.generations = some n from hn] at horigin
        cases horigin
      · intro n hn
        rw [show s.origin s.generations = some n from hn] at horigin
        cases horigin
      · exact fun hstage => absurd rfl hstage
      · intro snapshot hr
        exact absurd (h.called _ _ (hreplied _ _ hr)) (Nat.lt_irrefl _)
    · rw [setPc_of_ne hu] at hpc
      rw [(h.opening u c' g k' since' why' stage hpc).1] at hlock
      cases hlock
  · exact h.before
  · exact h.given
  · exact h.passed
  · intro g hg hacc
    obtain rfl := Option.some.inj hg
    change s.accepted s.generations = true at hacc
    rw [(h.later _ le_rfl).1] at hacc
    cases hacc

theorem Resuming.listen {since : ℤ} {why : Why} (h : s.Resuming) (hlock : s.lock = none)
    (hfollows : s.Follows since why) (hquiet : s.Quiet) : (s.listen t since why).Resuming := by
  let s₀ : Process := { s with opened := false }
  have h₀ : s₀.Resuming := h.keep (Keeps.quiet rfl le_rfl (fun _ h => .inl h) le_rfl le_rfl
    (fun _ _ _ _ _ _ _ h => h))
  have hdue : ∀ b, s.first = some b → since = s.due := fun b hb => h.follows hfollows hb
  unfold Process.listen
  rcases s₀.link_cases with ⟨c, hconn, halive, heq⟩ | heq
  · rw [show ({ s with opened := false } : Process).link = (s₀, c) from heq]
    exact h₀.asked (h₀.known c hconn) (hquiet c hconn halive) hlock hdue
  · have h₁ : s₀.connect.1.Resuming := by
      have keeps := h₀.keep Keeps.link
      rwa [heq] at keeps
    rw [show ({ s with opened := false } : Process).link = s₀.connect from heq]
    exact h₁.asked (Nat.lt_succ_self _) (h₀.blank _ le_rfl) hlock hdue

/-- Only the thread that holds the lock opens the session. -/
theorem Resuming.alone {u c' g' k' : ℕ} {since since' : ℤ} {why why' : Why} {stage stage' : Stage}
    (h : s.Resuming) (ht : s.pc t = .opening c g k since why stage)
    (hu : s.pc u = .opening c' g' k' since' why' stage') : u = t := by
  have hlock := (h.opening t c g k since why stage ht).1
  rw [(h.opening u c' g' k' since' why' stage' hu).1] at hlock
  exact Option.some.inj hlock

/-- The daemon attaches the connection. -/
theorem Resuming.attached {since : ℤ} {why : Why} (h : s.Resuming)
    (hpc : s.pc t = .opening c g k since why .asked) (hup : (s.links c).up = true) :
    Resuming ({ s.setLink c { s.links c with
        cursor := some (if since < 0 then s.log.length else since.toNat) } with
      origin := Function.update s.origin g
        (some (if since < 0 then s.log.length else since.toNat)) }.setPc t
          (.opening c g k since why .attached)) := by
  generalize hn : (if since < 0 then s.log.length else since.toNat) = n
  obtain ⟨hlock, hgen, hc, hk, hrising⟩ := h.opening t c g k since why .asked hpc
  obtain ⟨horigin, hcursor, hflow, hempty⟩ := hrising.asked rfl
  let link : Link := { s.links c with cursor := some n }
  have hreplied (k : ℕ) (snapshot : Option Snapshot) (hr : (s.setLink c link).Replied k snapshot) :
      s.Replied k snapshot := by
    rcases hr with hr | ⟨d, hr⟩
    · exact .inl hr
    · by_cases hd : d = c
      · subst hd
        rw [setLink_self] at hr
        exact .inr ⟨d, hr⟩
      · rw [setLink_of_ne hd] at hr
        exact .inr ⟨d, hr⟩
  have hnot : ∀ g', g' ≠ g → Function.update s.origin g (some n) g' = s.origin g' :=
    fun g' hg' => Function.update_of_ne hg' ..
  constructor
  · rintro g' (hg | hg | ⟨d, hg⟩ | hg)
    · exact h.named g' (.inl hg)
    · exact h.named g' (.inr (.inl hg))
    · change ((s.setLink c link).links d).listener = some g' ∨
        ∃ frame, ((s.setLink c link).links d).hand = some (g', frame) at hg
      by_cases hd : d = c
      · subst hd
        rw [setLink_self] at hg
        exact h.named g' (.inr (.inr (.inl ⟨d, hg⟩)))
      · rw [setLink_of_ne hd] at hg
        exact h.named g' (.inr (.inr (.inl ⟨d, hg⟩)))
    · exact h.named g' (.inr (.inr (.inr hg)))
  · intro d hd
    have hdc : d ≠ c := fun heq => absurd hc (by rw [← heq]; exact Nat.not_lt.mpr hd)
    show ((s.setLink c link).links d).Blank
    rw [setLink_of_ne hdc]
    exact h.blank d hd
  · exact h.known
  · intro d
    show ((s.setLink c link).links d).up = false → ((s.setLink c link).links d).cursor = none
    by_cases hd : d = c
    · subst hd
      rw [setLink_self]
      intro hdown
      rw [show (s.links d).up = false from hdown] at hup
      cases hup
    · rw [setLink_of_ne hd]
      exact h.down d
  · intro g' hg'
    have hne : g' ≠ g := by
      rintro rfl
      exact absurd (h.named g' (.inr (.inr (.inr hgen)))) (Nat.not_lt.mpr hg')
    exact ⟨(h.later g' hg').1, (hnot g' hne).trans (h.later g' hg').2⟩
  · exact fun k snapshot hr => h.called k snapshot (hreplied k snapshot hr)
  · intro u c' g' k' since' why' stage hu
    have hut : u = t := by
      by_contra hne
      rw [setPc_of_ne hne] at hu
      exact hne (h.alone hpc hu)
    subst hut
    rw [setPc_self] at hu
    cases hu
    refine ⟨hlock, hgen, hc, hk, ?_⟩
    have hself : Function.update s.origin g (some n) g = some n := Function.update_self ..
    have hone : ∀ m, Function.update s.origin g (some n) g = some m → m = n := fun m hm =>
      (Option.some.inj (hself.symm.trans hm)).symm
    constructor
    · exact hrising.unanswered
    · exact hrising.follows
    · rintro ⟨⟩
    · intro m hm
      obtain rfl := hone m hm
      refine ⟨fun d hd => ?_, 0, ?_, fun seq hseq _ => ?_⟩
      · show ((s.setLink c link).links d).listener ≠ _ ∧
          ∀ frame, ((s.setLink c link).links d).hand ≠ _
        rw [setLink_of_ne hd]
        exact hflow.lone d hd
      · show (s.setLink c link).pipeline g c = []
        rw [pipeline_setLink]
        exact hempty
      · change ((s.setLink c link).links c).cursor = some seq at hseq
        rw [setLink_self] at hseq
        exact (Option.some.inj hseq).symm
    · intro m hm
      obtain rfl := hone m hm
      show if since < 0 then m ≤ s.log.length else (m : ℤ) = since
      rw [← hn]
      split_ifs with hneg
      · exact le_rfl
      · exact Int.toNat_of_nonneg (by omega)
    · exact fun _ => ⟨n, hself⟩
    · intro snapshot hr
      obtain ⟨m, _, hm, _⟩ := hrising.reply snapshot (hreplied k snapshot hr)
      rw [horigin] at hm
      cases hm
  · exact h.before
  · exact h.given
  · exact h.passed
  · intro g' hg' hacc
    obtain rfl := Option.some.inj (hgen.symm.trans hg')
    change s.accepted g = true at hacc
    rw [hrising.unanswered] at hacc
    cases hacc

/-- The daemon has written its reply. -/
theorem Resuming.replied {since : ℤ} {why : Why} (h : s.Resuming)
    (hpc : s.pc t = .opening c g k since why .attached) :
    (s.setPc t (.opening c g k since why .answered)).Resuming := by
  refine { h with opening := ?_, flow := ?_ }
  rotate_left
  · intro g' hg' hacc
    obtain ⟨d, hflow⟩ := h.flow g' hg' hacc
    exact ⟨d, hflow.congr rfl rfl rfl⟩
  intro u c' g' k' since' why' stage hu
  have hut : u = t := by
    by_contra hne
    rw [setPc_of_ne hne] at hu
    exact hne (h.alone hpc hu)
  subst hut
  rw [setPc_self] at hu
  cases hu
  obtain ⟨hlock, hgen, hc, hk, hrising⟩ := h.opening u c g k since why .attached hpc
  refine ⟨hlock, hgen, hc, hk, ?_⟩
  exact {
    unanswered := hrising.unanswered
    follows := hrising.follows
    asked := by rintro ⟨⟩
    flow := fun n hn => (hrising.flow n hn).congr rfl rfl rfl
    origin := hrising.origin
    attached := fun _ => hrising.attached (by rintro ⟨⟩)
    reply := hrising.reply }

theorem dispatching_setPc (pc : Pc) : s.dispatching.setPc t pc = (s.setPc t pc).dispatching := by
  have hcaller : (s.setPc t pc).caller = s.caller := rfl
  unfold Process.dispatching
  rw [hcaller]
  split_ifs <;> rfl

/-- `open` succeeded: its range is the one that was due. -/
theorem Resuming.succeed {since : ℤ} {why : Why} {stage : Stage} {snapshot : Option Snapshot}
    (h : s.Resuming) (hpc : s.pc t = .opening c g k since why stage)
    (hans : s.answers k = some snapshot) : (s.succeed t g since why snapshot).Resuming := by
  obtain ⟨hlock, hgen, hc, hk, hrising⟩ := h.opening t c g k since why stage hpc
  obtain ⟨n, told, horigin, rfl, hseq⟩ := hrising.reply snapshot (.inl hans)
  have hrange := hrising.origin n horigin
  unfold Process.succeed
  simp only [dispatching_setPc]
  refine Resuming.keep ?_ Keeps.dispatching
  -- what is due is where the range begins
  have hdue : (s.first.or (s.origin g)).getD 0 + s.given.length = n := by
    rw [horigin]
    cases hfirst : s.first with
    | none => simp [(h.before hfirst).1]
    | some b =>
      have hsince := hrising.follows b hfirst
      have hpos : ¬since < 0 := by omega
      rw [if_neg hpos] at hrange
      have hn : n = s.due := by omega
      rw [hn, due, hfirst]
      rfl
  have hfloor : (n : ℤ) ≤ max s.seen (if since < 0 then told.seq else since - 1) + 1 := by
    split_ifs at hrange ⊢ with hneg
    · have := hseq hneg
      omega
    · omega
  constructor
  · exact h.named
  · exact h.blank
  · exact h.known
  · exact h.down
  · intro g' hg'
    have hne : g' ≠ g := by
      rintro rfl
      exact absurd (h.named g' (.inr (.inr (.inr hgen)))) (Nat.not_lt.mpr hg')
    exact ⟨(Function.update_of_ne hne ..).trans (h.later g' hg').1, (h.later g' hg').2⟩
  · exact h.called
  · intro u c' g' k' since' why' stage' hu
    by_cases hut : u = t
    · subst hut
      rw [setPc_self] at hu
      cases why <;> cases hu
    · rw [setPc_of_ne hut] at hu
      exact absurd (h.alone hpc hu) hut
  · intro hfirst
    change s.first.or (s.origin g) = none at hfirst
    rw [horigin] at hfirst
    cases hs : s.first <;> simp [hs] at hfirst
  · intro b hb
    change s.first.or (s.origin g) = some b at hb
    refine ⟨?_, ?_⟩
    · cases hfirst : s.first with
      | none =>
        show s.given.map Prod.snd = List.range' b s.given.length
        rw [(h.before hfirst).1]
        rfl
      | some b' =>
        rw [hfirst] at hb
        obtain rfl : b' = b := by simpa using hb
        exact (h.given b' hfirst).1
    · show (((s.first.or (s.origin g)).getD 0 + s.given.length : ℕ) : ℤ) ≤ _
      rw [hdue]
      exact hfloor
  · intro e he
    show Function.update s.accepted g true e.1 = true
    by_cases heg : e.1 = g
    · rw [heg, Function.update_self]
    · rw [Function.update_of_ne heg]
      exact h.passed e he
  · intro g' hg' _
    obtain rfl := Option.some.inj (hgen.symm.trans hg')
    refine ⟨c, ?_⟩
    show Flow _ g c ((s.first.or (s.origin g)).getD 0 + s.given.length)
    rw [hdue]
    exact (hrising.flow n horigin).congr rfl rfl rfl

/-- `open` failed: its generation is refused. -/
theorem Resuming.refuse {since : ℤ} {why : Why} {stage : Stage} (h : s.Resuming)
    (hpc : s.pc t = .opening c g k since why stage) : (s.refuse t c g).Resuming := by
  have h₁ : (s.unlisten c).Resuming := h.keep (Keeps.setLink .unlisten fun _ _ => .inl)
  have h₂ : ((s.unlisten c).close c).Resuming := h₁.keep (Keeps.setLink .cut fun _ _ => .inl)
  unfold Process.refuse
  have hpc₂ : ((s.unlisten c).close c).pc t = .opening c g k since why stage := hpc
  generalize (s.unlisten c).close c = r at h₂ hpc₂
  obtain ⟨_, hgen, _, _, hrising⟩ := h₂.opening t c g k since why stage hpc₂
  refine { h₂ with known := ?_, opening := ?_, flow := ?_ }
  · intro d hd
    change (if r.connection = some c then none else r.connection) = some d at hd
    split_ifs at hd
    exact h₂.known d hd
  · intro u c' g' k' since' why' stage' hu
    by_cases hut : u = t
    · subst hut
      rw [setPc_self] at hu
      cases hu
    · rw [setPc_of_ne hut] at hu
      exact absurd (h₂.alone hpc₂ hu) hut
  · intro g' hg' hacc
    obtain rfl := Option.some.inj (hgen.symm.trans hg')
    change r.accepted g = true at hacc
    rw [hrising.unanswered] at hacc
    cases hacc

/-- The dispatcher gives the callbacks the event that is due. -/
theorem Resuming.deliver {seq : ℕ} {record : Record} {snapshot : Option Snapshot} (h : s.Resuming)
    (hcaller : s.caller = some (.holding g (.event seq record snapshot))) (hlock : s.lock = none)
    (hacc : s.accepted g = true) (hgen : s.generation = some g) :
    (s.deliver g (.event seq record snapshot)).Resuming := by
  obtain ⟨b, hb⟩ : ∃ b, s.first = some b := by
    cases hfirst : s.first with
    | none =>
      rw [(h.before hfirst).2.2 g] at hacc
      cases hacc
    | some b => exact ⟨b, rfl⟩
  obtain ⟨c, hflow⟩ := h.flow g hgen hacc
  obtain ⟨m, hpipe, hcursor⟩ := hflow.line
  have hqueue : s.queue g = seq :: s.inbox.filterMap (under g) := by
    simp [queue, hcaller, Caller.arrived, under, Frame.seq?]
  have hdue : s.due = b + s.given.length := by
    rw [due, hb]
    rfl
  rw [pipeline, hqueue, List.cons_append] at hpipe
  obtain ⟨hseq, hpos, hrest⟩ := List.range'_eq_cons_iff.mp hpipe.symm
  let s' := s.deliver g (.event seq record snapshot)
  have hdue' : s'.due = s.due + 1 := by
    show s.first.getD 0 + (s.given ++ [(g, seq)]).length = _
    rw [List.length_append, List.length_singleton, ← Nat.add_assoc]
    rfl
  have hfirst' : s'.first = s.first := rfl
  have hgiven' : s'.given = s.given ++ [(g, seq)] := rfl
  have hpipe' : s'.pipeline g c = List.range' (s.due + 1) (m - 1) := by
    rw [hseq, ← hrest]
    rfl
  constructor
  · rintro g' (⟨_, ⟨⟩⟩ | hg | hg | hg)
    · exact h.named g' (.inr (.inl hg))
    · exact h.named g' (.inr (.inr (.inl hg)))
    · exact h.named g' (.inr (.inr (.inr hg)))
  · exact h.blank
  · exact h.known
  · exact h.down
  · exact h.later
  · exact h.called
  · intro u c' g' k' since' why' stage' hu
    rw [(h.opening u c' g' k' since' why' stage' hu).1] at hlock
    cases hlock
  · intro hfirst
    rw [show s.first = none from hfirst] at hb
    cases hb
  · intro b' hb'
    obtain rfl := Option.some.inj (hb.symm.trans hb')
    obtain ⟨hgiven, hseen⟩ := h.given b hb
    refine ⟨?_, ?_⟩
    · show s'.given.map Prod.snd = List.range' b s'.given.length
      rw [hgiven', List.map_append, List.length_append, List.length_singleton,
        List.range'_1_concat, ← hgiven, ← hdue, hseq]
      rfl
    · show (s'.due : ℤ) ≤ max s.seen seq + 1
      rw [hdue']
      omega
  · intro e he
    rcases List.mem_append.mp he with he | he
    · exact h.passed e he
    · rw [List.mem_singleton.mp he]
      exact hacc
  · intro g' hg' _
    obtain rfl := Option.some.inj (hgen.symm.trans hg')
    refine ⟨c, hflow.lone, m - 1, ?_, ?_⟩
    · show s'.pipeline g c = List.range' s'.due (m - 1)
      rw [hdue', hpipe']
    · intro q hq hl
      have := hcursor q hq hl
      show q = s'.due + (m - 1)
      omega

/-! ### Calls have their own numbers -/

structure Numbered (s : Process) : Prop where
  drawn : ∀ t k, (s.pc t).call = some k → k < s.calls
  single : ∀ t u k, (s.pc t).call = some k → (s.pc u).call = some k → t = u

theorem Numbered.congr (h : s.Numbered) (pc : s'.pc = s.pc) (calls : s'.calls = s.calls) :
    s'.Numbered := by
  constructor
  · rw [pc, calls]
    exact h.drawn
  · rw [pc]
    exact h.single

/-- A thread goes on with the call it has, or without one. -/
theorem Numbered.setPc {pc : Pc} (h : s.Numbered)
    (hpc : pc.call = none ∨ pc.call = (s.pc t).call) : (s.setPc t pc).Numbered := by
  have hold : ∀ u k, ((s.setPc t pc).pc u).call = some k → (s.pc u).call = some k := by
    intro u k hu
    by_cases hut : u = t
    · subst hut
      rw [setPc_self] at hu
      rcases hpc with hnone | hsame
      · rw [hnone] at hu
        cases hu
      · rwa [← hsame]
    · rwa [setPc_of_ne hut] at hu
  constructor
  · exact fun u k hu => h.drawn u k (hold u k hu)
  · exact fun u v k hu hv => h.single u v k (hold u k hu) (hold v k hv)

/-- A thread draws the number of a new call. -/
theorem Numbered.draw {pc : Pc} (h : s.Numbered) (hpc : pc.call = some s.calls) :
    Numbered ({ s with calls := s.calls + 1 }.setPc t pc) := by
  have hcases : ∀ u k, (({ s with calls := s.calls + 1 }.setPc t pc).pc u).call = some k →
      u = t ∧ k = s.calls ∨ u ≠ t ∧ (s.pc u).call = some k := by
    intro u k hu
    by_cases hut : u = t
    · subst hut
      rw [setPc_self, hpc] at hu
      exact .inl ⟨rfl, (Option.some.inj hu).symm⟩
    · rw [setPc_of_ne hut] at hu
      exact .inr ⟨hut, hu⟩
  constructor
  · intro u k hu
    rcases hcases u k hu with ⟨_, rfl⟩ | ⟨_, hold⟩
    · exact Nat.lt_succ_self _
    · exact Nat.lt_succ_of_lt (h.drawn u k hold)
  · intro u v k hu hv
    rcases hcases u k hu with ⟨hut, huk⟩ | ⟨_, hold⟩
    · rcases hcases v k hv with ⟨hvt, _⟩ | ⟨_, hold⟩
      · exact hut.trans hvt.symm
      · exact absurd (h.drawn v k hold) (by omega)
    · rcases hcases v k hv with ⟨_, hvk⟩ | ⟨_, hold'⟩
      · exact absurd (h.drawn u k hold) (by omega)
      · exact h.single u v k hold hold'

@[simp] theorem link_pc (s : Process) : s.link.1.pc = s.pc := by
  rcases s.link_cases with ⟨c, _, _, heq⟩ | heq
  · rw [heq]
  · rw [heq]
    rfl

@[simp] theorem link_calls (s : Process) : s.link.1.calls = s.calls := by
  rcases s.link_cases with ⟨c, _, _, heq⟩ | heq
  · rw [heq]
  · rw [heq]
    rfl

@[simp] theorem dispatching_pc (s : Process) : s.dispatching.pc = s.pc := by
  unfold Process.dispatching
  split_ifs <;> rfl

@[simp] theorem dispatching_calls (s : Process) : s.dispatching.calls = s.calls := by
  unfold Process.dispatching
  split_ifs <;> rfl

theorem next_call (why : Why) : (next why).call = none := by cases why <;> rfl

theorem Numbered.link (h : s.Numbered) : s.link.1.Numbered := h.congr s.link_pc s.link_calls

theorem Numbered.enter {since : ℤ} {why : Why} (h : s.Numbered) : (s.enter t since why).Numbered := by
  unfold Process.enter
  split_ifs
  · exact h.setPc (.inl rfl)
  · exact h.setPc (.inl (next_call why))
  · have h₁ : Numbered ({ s with opened := false } : Process).link.1 :=
      Numbered.link (h.congr rfl rfl)
    unfold Process.listen
    generalize ({ s with opened := false } : Process).link = linked at h₁
    obtain ⟨r, c⟩ := linked
    have h₂ : Numbered { r.setLink c { r.links c with listener := some r.generations } with
        generation := some r.generations, generations := r.generations + 1, lock := some t } :=
      h₁.congr rfl rfl
    exact h₂.draw rfl

theorem Numbered.ask {ask : Ask} (h : s.Numbered) : (s.ask t c ask).Numbered := h.draw rfl

theorem Numbered.answer {ask : Ask} {snapshot : Option Snapshot} (h : s.Numbered) :
    (s.answer t c snapshot ask).Numbered := by
  cases ask with
  | send ticket => exact h.setPc (.inl rfl)
  | status => exact (h.congr rfl rfl : Numbered { s with state := s.told snapshot }).setPc (.inl rfl)
  | detach => exact (h.congr rfl rfl : Numbered { s with opened := false }).setPc (.inl rfl)
  | stop =>
    exact (h.congr rfl rfl : Numbered { s with finished := true, opened := false }).setPc (.inl rfl)

theorem Numbered.raise {ask : Ask} (h : s.Numbered) : (s.raise t c ask).Numbered := by
  cases ask with
  | send ticket =>
    exact (h.congr rfl rfl : Numbered { s with awaiting := s.awaiting.erase ticket }).setPc (.inl rfl)
  | status => exact h.setPc (.inl rfl)
  | detach | stop => exact h.setPc (.inl rfl)

theorem lose_same (s : Process) (connection : Option ℕ) :
    (s.lose connection).pc = s.pc ∧ (s.lose connection).calls = s.calls := by
  unfold Process.lose
  cases connection <;> exact ⟨rfl, rfl⟩

theorem leave_same (s : Process) (left : Left) :
    (s.leave left).pc = s.pc ∧ (s.leave left).calls = s.calls := by
  cases left with
  | detached => exact ⟨rfl, rfl⟩
  | lost => exact ⟨rfl, rfl⟩
  | stopped connection => cases connection <;> exact ⟨rfl, rfl⟩

theorem reply_same (s : Process) (k : ℕ) (snapshot : Snapshot) (ask : Ask) :
    (s.reply c k snapshot ask).pc = s.pc ∧ (s.reply c k snapshot ask).calls = s.calls := by
  cases ask <;> exact ⟨rfl, rfl⟩

theorem Numbered.go (h : s.Numbered) (hstep : s.go t (s.pc t) = some s') : s'.Numbered := by
  cases hpc : s.pc t with
  | noting text =>
    rw [hpc] at hstep
    cases hstep
    refine Numbered.draw (s := { s with
      awaiting := s.awaiting ++ [⟨text, max s.seen s.state.seq⟩]
      state := { s.state with status := .busy } }) (h.congr rfl rfl) rfl
  | posting ticket k =>
    rw [hpc] at hstep
    cases hstep
    have h₁ : Numbered
        { s.link.1 with posted := Function.update s.link.1.posted k (some ticket) } :=
      h.link.congr rfl rfl
    refine h₁.setPc (.inr ?_)
    show (Pc.asking s.link.2 k (.send ticket) false).call = (s.link.1.pc t).call
    rw [link_pc, hpc]
    rfl
  | refreshing =>
    rw [hpc] at hstep
    simp only [Process.go] at hstep
    split at hstep
    · cases hstep
      exact h.ask
    · cases hstep
      exact h.setPc (.inl rfl)
  | losing connection =>
    rw [hpc] at hstep
    cases hstep
    obtain ⟨hpcs, hcalls⟩ := s.lose_same connection
    exact (h.congr hpcs hcalls).setPc (.inl rfl)
  | unlistening left =>
    rw [hpc] at hstep
    cases hstep
    refine Numbered.setPc ?_ (.inl rfl)
    split
    · exact h.congr rfl rfl
    · exact h
  | clearing left =>
    rw [hpc] at hstep
    cases hstep
    exact (h.congr rfl rfl : Numbered { s with awaiting := [] }).setPc (.inl rfl)
  | signing left =>
    rw [hpc] at hstep
    cases hstep
    refine Numbered.setPc ?_ (.inl rfl)
    split_ifs
    · exact h
    · exact h.congr rfl rfl
  | settled left =>
    rw [hpc] at hstep
    cases hstep
    obtain ⟨hpcs, hcalls⟩ := s.leave_same left
    exact (h.congr hpcs hcalls).setPc (.inl rfl)
  | idle | starting | opening | asking =>
    rw [hpc] at hstep
    cases hstep

theorem Numbered.step {act : Act} (h : s.Numbered) (hstep : s.step act = some s') :
    s'.Numbered := by
  cases moves_of_step hstep with
  | start | send | refresh | refreshOpening | detachCut | stopCut => exact h.setPc (.inl rfl)
  | sendOpening | stopUnstarted | unlinked | unposted | refuse =>
    exact Numbered.setPc (h.congr rfl rfl) (.inl rfl)
  | history => exact h.link
  | detach | stop => exact h.ask
  | enter => exact h.enter
  | succeed =>
    unfold Process.succeed
    refine Numbered.setPc (h.congr ?_ ?_) (.inl (next_call _))
    · rw [dispatching_pc]
    · rw [dispatching_calls]
  | answer => exact h.answer
  | raise => exact h.raise
  | go goes => exact h.go goes
  | attach opening =>
    exact Numbered.setPc (h.congr rfl rfl) (.inr (by simp [opening, Pc.call, setLink]))
  | serveOpen opening =>
    exact Numbered.setPc (h.congr rfl rfl) (.inr (by simp [opening, Pc.call, write, setLink]))
  | @serve t c k ask snapshot asking =>
    obtain ⟨hpcs, hcalls⟩ := s.reply_same (c := c) k snapshot ask
    refine (h.congr hpcs hcalls).setPc (.inr ?_)
    rw [hpcs, asking]
    rfl
  | @pump c line =>
    cases line with
    | frame | reply => exact h.congr rfl rfl
  | arrived =>
    dsimp only
    split_ifs
    · exact h.congr (dispatching_pc _) (dispatching_calls _)
    · exact h.congr rfl rfl
  | @deliver g frame =>
    cases frame with
    | event | gone | disconnected => exact h.congr rfl rfl
  | ended =>
    dsimp only
    split_ifs
    · exact h.congr (dispatching_pc _) (dispatching_calls _)
    · exact h.congr rfl rfl
  | record | accept | stream | part | drop | hangUp | get | leave | discard | called =>
    exact h.congr rfl rfl

/-! ### Every step -/

/-- Whoever opens the session asks for the range that is due, on a connection that carries nothing
of an earlier one. -/
def Steady (s : Process) : Act → Prop
  | .enter t => match s.pc t with
      | .starting since why => s.reopens = true → s.Follows since why ∧ s.Quiet
      | _ => True
  | _ => True

theorem Resuming.setPc {pc : Pc} (h : s.Resuming)
    (hpc : ∀ c g k since why stage, pc ≠ .opening c g k since why stage) :
    (s.setPc t pc).Resuming :=
  h.keep (Keeps.quiet rfl le_rfl (fun _ h => .inl h) le_rfl le_rfl
    fun _ _ _ _ _ _ _ => pc_of_setPc hpc)

/-- Steps that change nothing but the Chat's own view of the session. -/
theorem Resuming.view (h : s.Resuming)
    (same : s' = { s with
      opened := s'.opened, started := s'.started, finished := s'.finished, state := s'.state
      awaiting := s'.awaiting, calls := s'.calls, posted := s'.posted, taken := s'.taken })
    (calls : s.calls ≤ s'.calls) : s'.Resuming := by
  have hconnection : s'.connection = s.connection := by rw [same]
  have hmade : s'.linksMade = s.linksMade := by rw [same]
  have hlog : s'.log = s.log := by rw [same]
  have hpc : s'.pc = s.pc := by rw [same]
  refine h.keep (Keeps.quiet ?_ hmade.ge ?_ calls ?_ ?_)
  · rw [same]
  · rw [hconnection]
    exact fun c hc => .inl hc
  · rw [hlog]
  · rw [hpc]
    exact fun _ _ _ _ _ _ _ h => h

theorem Resuming.link (h : s.Resuming) : s.link.1.Resuming := h.keep Keeps.link

theorem Resuming.fade {link : Link} (h : s.Resuming) (fades : (s.links c).Fades link)
    (wire : ∀ line ∈ link.wire, line ∈ (s.links c).wire) : (s.setLink c link).Resuming :=
  h.keep (Keeps.setLink fades fun _ _ hmem => .inl (wire _ hmem))

theorem Resuming.unlisten (h : s.Resuming) : (s.unlisten c).Resuming :=
  h.fade .unlisten fun _ hmem => hmem

theorem Resuming.close (h : s.Resuming) : (s.close c).Resuming := h.fade .cut fun _ hmem => hmem

theorem Resuming.unsubscribe (h : s.Resuming) : (s.unsubscribe c).Resuming :=
  h.fade .cut fun _ hmem => hmem

/-- The connection is given up, if it is this one. -/
theorem Resuming.forget (h : s.Resuming) : Resuming
    { s with connection := if s.connection = some c then none else s.connection } := by
  refine h.keep (Keeps.quiet rfl le_rfl ?_ le_rfl le_rfl fun _ _ _ _ _ _ _ h => h)
  intro d hd
  change (if s.connection = some c then none else s.connection) = some d at hd
  split_ifs at hd
  exact .inl hd

theorem Resuming.ask {ask : Ask} (h : s.Resuming) : (s.ask t c ask).Resuming := by
  refine Resuming.setPc (h.view ?_ (Nat.le_succ _)) ?_
  · rfl
  · rintro _ _ _ _ _ _ ⟨⟩

theorem Resuming.dispatching (h : s.Resuming) : s.dispatching.Resuming := h.keep Keeps.dispatching

theorem Resuming.lose {connection : Option ℕ} (h : s.Resuming) : (s.lose connection).Resuming := by
  have h₁ : Resuming { s with opened := false } := h.view rfl le_rfl
  unfold Process.lose
  cases connection with
  | some c => exact h₁.unlisten.close.forget
  | none => exact h₁

theorem Resuming.leave {left : Left} (h : s.Resuming) : (s.leave left).Resuming := by
  cases left with
  | detached => exact h
  | lost => exact h.view rfl le_rfl
  | stopped connection =>
    have h₁ : Resuming { s with awaiting := [], state := { s.state with status := .stopped } } :=
      h.view rfl le_rfl
    cases connection with
    | some c => exact h₁.close.forget
    | none => exact h₁

theorem Resuming.answer {ask : Ask} {snapshot : Option Snapshot} (h : s.Resuming) :
    (s.answer t c snapshot ask).Resuming := by
  cases ask with
  | send ticket => exact h.setPc (by rintro _ _ _ _ _ _ ⟨⟩)
  | status =>
    exact (h.view rfl le_rfl : Resuming { s with state := s.told snapshot }).setPc
      (by rintro _ _ _ _ _ _ ⟨⟩)
  | detach =>
    exact (h.view rfl le_rfl : Resuming { s with opened := false }).setPc
      (by rintro _ _ _ _ _ _ ⟨⟩)
  | stop =>
    exact (h.view rfl le_rfl : Resuming { s with finished := true, opened := false }).setPc
      (by rintro _ _ _ _ _ _ ⟨⟩)

theorem Resuming.raise {ask : Ask} (h : s.Resuming) : (s.raise t c ask).Resuming := by
  cases ask with
  | send ticket =>
    exact (h.view rfl le_rfl : Resuming { s with awaiting := s.awaiting.erase ticket }).setPc
      (by rintro _ _ _ _ _ _ ⟨⟩)
  | status => exact h.setPc (by rintro _ _ _ _ _ _ ⟨⟩)
  | detach | stop => exact h.setPc (by rintro _ _ _ _ _ _ ⟨⟩)

theorem next_not_opening (why : Why) :
    ∀ c g k since why' stage, next why ≠ .opening c g k since why' stage := by
  cases why <;> rintro _ _ _ _ _ _ ⟨⟩

/-- The daemon writes a line that is no event. -/
theorem Resuming.write {line : Line} (h : s.Resuming) (hline : line.seq? = none)
    (hreply : ∀ k snapshot, line = .reply k snapshot → k < s.calls ∧
      ∀ t c g since why stage, s.pc t = .opening c g k since why stage →
        s.Answers g since snapshot) : (s.write c line).Resuming := by
  refine h.keep (Keeps.setLink (.write hline) fun k snapshot hmem => ?_)
  rcases List.mem_append.mp hmem with hmem | hmem
  · exact .inl hmem
  · exact .inr (hreply k snapshot (List.mem_singleton.mp hmem).symm)

/-- The reply to a call that is no `open`. -/
theorem Resuming.answerTo {ask : Ask} {served : Bool} {snapshot : Option Snapshot} {r : Process}
    (h : r.Resuming) (numbered : s.Numbered) (hpcs : r.pc = s.pc) (hcalls : r.calls = s.calls)
    (hpc : s.pc t = .asking c k ask served) : (r.write c (.reply k snapshot)).Resuming := by
  have hcall : (s.pc t).call = some k := by rw [hpc]; rfl
  refine h.write rfl fun k' snapshot' heq => ?_
  cases heq
  refine ⟨by rw [hcalls]; exact numbered.drawn t k hcall, ?_⟩
  intro u c' g since why stage hu
  rw [hpcs] at hu
  have hut : u = t := numbered.single u t k (by rw [hu]; rfl) hcall
  subst hut
  rw [hpc] at hu
  cases hu

theorem Resuming.reply {ask : Ask} {served : Bool} {snapshot : Snapshot} (h : s.Resuming)
    (numbered : s.Numbered) (hpc : s.pc t = .asking c k ask served) :
    (s.reply c k snapshot ask).Resuming := by
  cases ask with
  | detach => exact h.unsubscribe.answerTo numbered rfl rfl hpc
  | send | status | stop => exact h.answerTo numbered rfl rfl hpc

theorem Resuming.go (h : s.Resuming) (hstep : s.go t (s.pc t) = some s') : s'.Resuming := by
  cases hpc : s.pc t with
  | noting text =>
    rw [hpc] at hstep
    cases hstep
    refine Resuming.setPc (h.view ?_ (Nat.le_succ _)) (by rintro _ _ _ _ _ _ ⟨⟩)
    rfl
  | posting ticket k =>
    rw [hpc] at hstep
    cases hstep
    have h₁ : Resuming
        { s.link.1 with posted := Function.update s.link.1.posted k (some ticket) } :=
      h.link.view rfl le_rfl
    exact h₁.setPc (by rintro _ _ _ _ _ _ ⟨⟩)
  | refreshing =>
    rw [hpc] at hstep
    simp only [Process.go] at hstep
    split at hstep
    · cases hstep
      exact h.ask
    · cases hstep
      exact h.setPc (by rintro _ _ _ _ _ _ ⟨⟩)
  | losing connection =>
    rw [hpc] at hstep
    cases hstep
    exact h.lose.setPc (by rintro _ _ _ _ _ _ ⟨⟩)
  | unlistening left =>
    rw [hpc] at hstep
    cases hstep
    refine Resuming.setPc ?_ (by rintro _ _ _ _ _ _ ⟨⟩)
    split
    · exact h.unlisten
    · exact h
  | clearing left =>
    rw [hpc] at hstep
    cases hstep
    exact (h.view rfl le_rfl : Resuming { s with awaiting := [] }).setPc
      (by rintro _ _ _ _ _ _ ⟨⟩)
  | signing left =>
    rw [hpc] at hstep
    cases hstep
    refine Resuming.setPc ?_ (by rintro _ _ _ _ _ _ ⟨⟩)
    split_ifs
    · exact h
    · refine h.keep (Keeps.dispatch s.caller (s.inbox ++ [none]) ?_ ?_)
      · intro g _
        simp [queue, under]
      · rintro g (hg | ⟨frame, hg⟩)
        · exact .inl hg
        · refine .inr ⟨frame, ?_⟩
          simpa using hg
  | settled left =>
    rw [hpc] at hstep
    cases hstep
    exact h.leave.setPc (by rintro _ _ _ _ _ _ ⟨⟩)
  | idle | starting | opening | asking =>
    rw [hpc] at hstep
    cases hstep

/-- The dispatcher takes the frame that is next in the inbox. -/
theorem Resuming.get {frame : Frame} {rest : List (Option (ℕ × Frame))} (h : s.Resuming)
    (getting : s.caller = some .getting) (inbox : s.inbox = some (g, frame) :: rest) :
    Resuming { s with inbox := rest, caller := some (.holding g frame) } := by
  refine h.keep (Keeps.dispatch _ _ ?_ ?_)
  · intro g' _
    have hqueue : s.queue g' = (under g' (some (g, frame))).toList ++ rest.filterMap (under g') := by
      cases hu : under g' (some (g, frame)) <;>
        simp [queue, getting, inbox, Caller.arrived, hu, show under g' none = none from rfl]
    rw [hqueue]
    rfl
  · rintro g' (⟨frame', hg⟩ | ⟨frame', hg⟩)
    · obtain ⟨rfl, rfl⟩ : g = g' ∧ frame = frame' := by simpa using hg
      exact .inr ⟨frame, by rw [inbox]; exact List.mem_cons_self⟩
    · exact .inr ⟨frame', by rw [inbox]; exact List.mem_cons_of_mem _ hg⟩

/-- The dispatcher is told to leave. -/
theorem Resuming.leaving {rest : List (Option (ℕ × Frame))} (h : s.Resuming)
    (getting : s.caller = some .getting) (inbox : s.inbox = none :: rest) :
    Resuming { s with inbox := rest, caller := some .leaving } := by
  refine h.keep (Keeps.dispatch _ _ ?_ ?_)
  · intro g' _
    have hnone : under g' none = none := rfl
    simp [queue, getting, inbox, Caller.arrived, hnone]
  · rintro g' (⟨_, ⟨⟩⟩ | ⟨frame', hg⟩)
    exact .inr ⟨frame', by rw [inbox]; exact List.mem_cons_of_mem _ hg⟩

/-- The dispatcher lets go of what it holds, which matters to no callback, and goes on. -/
theorem Resuming.release {frame : Frame} {caller : Caller} (h : s.Resuming)
    (hcaller : s.caller = some (.holding g frame)) (hnone : caller.arrived = none)
    (hidle : frame.seq? = none ∨ ¬s.Minds g) :
    Resuming { s with caller := some caller } := by
  refine h.keep (Keeps.dispatch (some caller) s.inbox ?_ ?_)
  · intro g' hg'
    have hunder : under g' (some (g, frame)) = none := by
      rcases hidle with hseq | hminds
      · simp [under, hseq]
      · have hne : g ≠ g' := by
          rintro rfl
          exact hminds hg'
        simp [under, hne]
    have hnew : (under g' ((some caller : Option Caller).bind Caller.arrived)) = none := by
      rw [Option.bind_some, hnone]
      rfl
    have hold : under g' (s.caller.bind Caller.arrived) = none := by
      rw [hcaller]
      exact hunder
    show (under g' _).toList ++ _ = _
    rw [hnew, queue, hold]
  · rintro g' (⟨frame', hg⟩ | hg)
    · rw [Option.some.inj hg] at hnone
      cases hnone
    · exact .inr hg

theorem write_setLink (link : Link) (line : Line) :
    (s.setLink c link).write c line = s.setLink c { link with wire := link.wire ++ [line] } := by
  unfold Process.write
  rw [setLink_self]
  simp only [setLink, Function.update_idem]

theorem Resuming.step_enter {t : ℕ} (h : s.Resuming) (steady : s.Steady (.enter t))
    (move : s.Moves (.enter t) s') : s'.Resuming := by
  cases move with
  | @enter _ since why starting unlocked =>
    unfold Process.enter
    split_ifs with hfinished hopened
    · exact h.setPc (by rintro _ _ _ _ _ _ ⟨⟩)
    · exact h.setPc (next_not_opening why)
    · simp only [Steady, starting] at steady
      obtain ⟨hfollows, hquiet⟩ := steady (by simp [reopens, hfinished, hopened])
      exact h.listen unlocked hfollows hquiet

theorem Resuming.step_serve {t : ℕ} {snapshot : Snapshot} (h : s.Resuming) (numbered : s.Numbered)
    (move : s.Moves (.serve t snapshot) s') : s'.Resuming := by
  cases move with
  | @serveOpen _ c g k since why _ opening up head =>
    obtain ⟨_, hgen, _, hk, hrising⟩ := h.opening t c g k since why .attached opening
    have hwritten : (s.write c (.reply k (some snapshot))).Resuming := by
      refine h.write rfl fun k' snapshot' heq => ?_
      cases heq
      refine ⟨hk, fun u c' g' since' why' stage' hu => ?_⟩
      have hut := h.alone opening hu
      subst hut
      rw [opening] at hu
      cases hu
      obtain ⟨n, horigin⟩ := hrising.attached (by rintro ⟨⟩)
      have hrange := hrising.origin n horigin
      refine ⟨n, snapshot, horigin, rfl, fun hneg => ?_⟩
      rw [if_pos hneg] at hrange
      omega
    exact hwritten.replied opening
  | serve asking => exact (h.reply numbered asking).setPc (by rintro _ _ _ _ _ _ ⟨⟩)

theorem Resuming.step_pump {c : ℕ} (h : s.Resuming) (move : s.Moves (.pump c) s') :
    s'.Resuming := by
  cases move with
  | @pump _ line rest clear wire =>
    cases line with
    | frame frame =>
      refine h.fade (.take clear wire) fun line hmem => ?_
      rw [wire]
      exact List.mem_cons_of_mem _ hmem
    | reply k snapshot =>
      have hsettled : Resuming
          { s with answers := Function.update s.answers k (some snapshot) } :=
        h.keep (Keeps.settle (c := c) (by rw [wire]; exact List.mem_cons_self))
      refine hsettled.fade (.settle wire) fun line hmem => ?_
      show line ∈ (s.links c).wire
      rw [wire]
      exact List.mem_cons_of_mem _ hmem

theorem Resuming.step_deliver (h : s.Resuming) (move : s.Moves .deliver s') : s'.Resuming := by
  cases move with
  | @deliver g frame holding ready unlocked accepted current =>
    cases frame with
    | event seq record snapshot => exact h.deliver holding unlocked accepted current
    | disconnected | gone snapshot =>
      have hleft : Resuming { s with caller := some .leaving } := h.release holding rfl (.inl rfl)
      exact hleft.view rfl le_rfl
  | discard holding ready unlocked stale =>
    refine h.release holding rfl (.inr ?_)
    rintro ⟨hgen, hacc | hlock⟩
    · exact stale ⟨hacc, hgen⟩
    · exact hlock unlocked

theorem Resuming.returned (h : s.Resuming) (calling : s.caller = some .calling) :
    Resuming { s with caller := some .getting } := by
  refine h.keep (Keeps.dispatch (some .getting) s.inbox ?_ ?_)
  · intro g _
    simp [queue, calling, Caller.arrived]
  · rintro g (⟨_, ⟨⟩⟩ | hg)
    exact .inr hg

theorem Resuming.ended (h : s.Resuming) (leaving : s.caller = some .leaving) :
    Resuming { s with caller := none } := by
  refine h.keep (Keeps.dispatch none s.inbox ?_ ?_)
  · intro g _
    simp [queue, leaving, Caller.arrived]
  · rintro g (⟨_, ⟨⟩⟩ | hg)
    exact .inr hg

theorem Resuming.step {act : Act} (h : s.Resuming) (numbered : s.Numbered) (steady : s.Steady act)
    (hstep : s.step act = some s') : s'.Resuming := by
  cases moves_of_step hstep with
  | start | send | refresh | refreshOpening | detachCut | stopCut =>
    exact h.setPc (by rintro _ _ _ _ _ _ ⟨⟩)
  | sendOpening | stopUnstarted | unlinked | unposted =>
    exact Resuming.setPc (h.view rfl le_rfl) (by rintro _ _ _ _ _ _ ⟨⟩)
  | history => exact h.link
  | detach | stop => exact h.ask
  | enter => exact h.step_enter steady (moves_of_step hstep)
  | succeed opening answers => exact h.succeed opening answers
  | answer => exact h.answer
  | refuse opening => exact h.refuse opening
  | raise => exact h.raise
  | go goes => exact h.go goes
  | record =>
    refine h.keep (Keeps.quiet rfl le_rfl (fun _ h => .inl h) le_rfl ?_ fun _ _ _ _ _ _ _ h => h)
    rw [List.length_append]
    exact Nat.le_add_right ..
  | accept => exact h.view rfl le_rfl
  | attach opening up => exact h.attached opening up
  | serveOpen | serve => exact h.step_serve numbered (moves_of_step hstep)
  | stream cursor =>
    rw [write_setLink]
    exact h.keep (Keeps.stream cursor)
  | part =>
    refine h.unsubscribe.write rfl ?_
    rintro _ _ ⟨⟩
  | drop => exact h.fade .cut fun _ hmem => hmem
  | pump => exact h.step_pump (moves_of_step hstep)
  | arrived hand =>
    have harrived := h.keep (Keeps.arrived hand)
    dsimp only
    split_ifs
    · exact harrived.dispatching
    · exact harrived
  | hangUp down clear =>
    refine h.fade (.hangUp down clear) ?_
    intro _ hmem
    cases hmem
  | get getting inbox => exact h.get getting inbox
  | leave getting inbox => exact h.leaving getting inbox
  | deliver | discard => exact h.step_deliver (moves_of_step hstep)
  | called calling => exact h.returned calling
  | ended leaving =>
    dsimp only
    split_ifs
    · exact (h.ended leaving).dispatching
    · exact h.ended leaving

theorem reach_resuming (h : machine.Reach Steady s) : s.Numbered ∧ s.Resuming := by
  refine h.invariant (I := fun s => s.Numbered ∧ s.Resuming) ?_ ?_
  · rintro _ rfl
    refine ⟨⟨?_, ?_⟩, Resuming.init⟩
    · rintro _ _ ⟨⟩
    · rintro _ _ _ ⟨⟩
  · intro r act r' _ hinv steady hstep
    exact ⟨hinv.1.step hstep, hinv.2.step hinv.1 steady hstep⟩

/-- What the callbacks are given is in order, without a gap from where the first range began, and
of no open that was refused. -/
structure Resumes (s : Process) : Prop where
  increasing : (s.given.map Prod.snd).Pairwise (· < ·)
  complete : ∀ b, s.first = some b → ∀ last ∈ s.given.map Prod.snd, ∀ seq, b ≤ seq → seq ≤ last →
    seq ∈ s.given.map Prod.snd
  accepted : ∀ e ∈ s.given, s.accepted e.1 = true

theorem Resuming.resumes (h : s.Resuming) : s.Resumes := by
  refine ⟨?_, ?_, h.passed⟩
  · cases hfirst : s.first with
    | none =>
      rw [(h.before hfirst).1]
      exact .nil
    | some b =>
      rw [(h.given b hfirst).1]
      exact List.pairwise_lt_range'
  · intro b hb last hlast seq hle hseq
    rw [(h.given b hb).1] at hlast ⊢
    rw [List.mem_range'_1] at hlast ⊢
    omega

/-- A Chat resumes without gap or repeat. -/
theorem callbacks_resume (h : machine.Reach Steady s) : s.Resumes := (reach_resuming h).2.resumes

instance (link : Link) : Decidable link.Blank := by
  unfold Link.Blank
  infer_instance

instance (s : Process) : Decidable s.Quiet :=
  match h : s.connection with
  | none => .isTrue (by simp [Quiet, h])
  | some c => decidable_of_iff ((s.links c).alive = true → (s.links c).Blank) (by simp [Quiet, h])

instance (s : Process) (since : ℤ) : (why : Why) → Decidable (s.Follows since why)
  | .start => inferInstanceAs (Decidable (s.first = none))
  | .send _ | .refresh => inferInstanceAs (Decidable (since = s.seen + 1 ∧ s.owed = []))

instance (s : Process) : (act : Act) → Decidable (s.Steady act)
  | .enter t => match h : s.pc t with
      | .starting since why =>
          decidable_of_iff (s.reopens = true → s.Follows since why ∧ s.Quiet) (by simp [Steady, h])
      | .idle | .opening .. | .noting _ | .posting .. | .refreshing | .asking .. | .losing _
      | .unlistening _ | .clearing _ | .signing _ | .settled _ => .isTrue (by simp [Steady, h])
  | .start .. | .send .. | .refresh _ | .history _ | .detach _ | .stop _ | .unlinked _
  | .answered _ | .raised _ | .go _ | .record _ | .accept _ | .attach _ | .serve .. | .stream .. | .part ..
  | .drop _ | .pump _ | .arrived _ | .hangUp _ | .get | .deliver | .called | .ended => .isTrue trivial

/-- The first open; two events are streamed, and one of them is with a callback when the
connection breaks. -/
def cutOff : List Act :=
  [.start 0 0, .enter 0, .attach 0, .serve 0 { status := .waiting }, .pump 0, .answered 0,
    .record { type := .text }, .record { type := .text },
    .stream 0 { status := .waiting, seq := 1 }, .stream 0 { status := .waiting, seq := 1 },
    .pump 0, .arrived 0, .pump 0, .arrived 0, .get, .deliver, .drop 0, .hangUp 0, .arrived 0]

/-- The open that a send makes, and the event it is streamed. -/
def openAgain : List Act :=
  [.enter 0, .attach 0, .serve 0 { status := .waiting, seq := 1 },
    .stream 1 { status := .waiting, seq := 1 }, .pump 1, .pump 1, .arrived 1, .answered 0]

/-- A send opens the session again while an event of the old connection waits for the callback. -/
theorem callbacks_resume_slow :
    ∃ s : Process, s.Resumes ∧ s.given = [(0, 0), (1, 1)] ∧ s.first = some 0 := by
  let moves : List Act := cutOff ++ .send 0 "go" :: openAgain ++
    [.called, .get, .deliver, .get, .deliver, .get, .deliver]
  have run : ∃ s, machine.exec {} moves = some s ∧ s.given = [(0, 0), (1, 1)] ∧ s.first = some 0 :=
    ⟨_, Option.eq_some_of_isSome (by decide +kernel), by decide +kernel, by decide +kernel⟩
  obtain ⟨s, hrun, hgiven, hfirst⟩ := run
  have along : machine.Along Steady {} moves := by decide +kernel
  exact ⟨s, callbacks_resume ((Lib.Machine.Reach.init rfl).exec along hrun), hgiven, hfirst⟩

/-- The event is handed over after the send has read the cursor and before it has the lock: it is
handed over again. -/
theorem callback_given_twice :
    ∃ s : Process, machine.Reach (fun _ _ => True) s ∧ ¬s.Resumes := by
  let moves : List Act := cutOff ++ [.send 0 "go", .called, .get, .deliver] ++ openAgain ++
    [.called, .get, .deliver, .get, .deliver]
  have run : ∃ s, machine.exec {} moves = some s ∧ s.given = [(0, 0), (0, 1), (1, 1)] :=
    ⟨_, Option.eq_some_of_isSome (by decide +kernel), by decide +kernel⟩
  obtain ⟨s, hrun, hgiven⟩ := run
  have along := Lib.Machine.along_of_forall (M := machine) (fun _ _ => trivial) {} moves
  refine ⟨s, (Lib.Machine.Reach.init rfl).exec along hrun, fun hresumes => ?_⟩
  have hincreasing := hresumes.increasing
  rw [hgiven] at hincreasing
  exact absurd hincreasing (by decide)

end Process
end SiliconOmni.Python
