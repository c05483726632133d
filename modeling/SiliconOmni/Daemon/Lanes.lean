import SiliconOmni.Daemon.Admission

/-! Requests of one lane are answered one at a time, in wire order, and a full gate never stalls. -/
namespace SiliconOmni.Daemon
open Lib

/-- Tasks that hold the tickets from `n` on, each for the request that drew it. -/
def Line (wire : List Request) : ℕ → List Task → Prop
  | _, [] => True
  | n, task :: rest =>
      task.ticket = n ∧ wire[n]? = some task.request ∧ Line wire (n + 1) rest

theorem line_append {wire : List Request} {n : ℕ} {front back : List Task} :
    Line wire n (front ++ back) ↔ Line wire n front ∧ Line wire (n + front.length) back := by
  induction front generalizing n with
  | nil => simp [Line]
  | cons task rest ih =>
    have hn : n + 1 + rest.length = n + (rest.length + 1) := by omega
    simp [Line, ih, hn, and_assoc]

theorem Line.extend {wire : List Request} {n : ℕ} {tasks : List Task} (h : Line wire n tasks)
    (more : List Request) : Line (wire ++ more) n tasks := by
  induction tasks generalizing n with
  | nil => trivial
  | cons task rest ih =>
    obtain ⟨hticket, hwire, hrest⟩ := h
    refine ⟨hticket, ?_, ih hrest⟩
    have hlt : n < wire.length := (List.getElem?_eq_some_iff.mp hwire).1
    rw [List.getElem?_append_left hlt]
    exact hwire

/-- Both marks of each request, in order. -/
def rounds (conn : ℕ) (requests : List Request) : List Mark :=
  requests.flatMap fun request => [.began conn request, .ended conn request]

theorem rounds_append (conn : ℕ) (front back : List Request) :
    rounds conn (front ++ back) = rounds conn front ++ rounds conn back := List.flatMap_append

/-- The mark of a request whose answer is under way. -/
def underWay : Option Task → List Mark
  | some task => if task.phase = .running then [.began task.conn task.request] else []
  | none => []

namespace Requests

/-- What tells the requests of one lane from the others. -/
def onLane (conn : ℕ) (key : String) (task : Task) : Bool :=
  task.conn = conn && laneKey task.request = some key

def standing (conn : ℕ) (key : String) (task : Task) : Bool :=
  onLane conn key task && task.phase ≠ .left

theorem filter_standing {conn : ℕ} {key : String} {task : Task}
    (h : standing conn key task = true) : [task].filter (standing conn key) = [task] := by
  simp [h]

theorem filter_away {conn : ℕ} {key : String} {task : Task}
    (h : standing conn key task = false) : [task].filter (standing conn key) = [] := by
  simp [h]

/-- The tasks of a lane that have not left it, in the order they were admitted. -/
def queue (s : Requests) (conn : ℕ) (key : String) : List Task :=
  s.tasks.filter (standing conn key)

/-- The requests of a lane, in wire order. -/
def laneWire (s : Requests) (conn : ℕ) (key : String) : List Request :=
  (s.wire conn).filter fun request => laneKey request = some key

def laneMarks (s : Requests) (conn : ℕ) (key : String) : List Mark :=
  s.marks.filter fun mark => mark.conn = conn && laneKey mark.request = some key

/-- The ticket a reader may hold in hand is the last one drawn. -/
def Drawn (key : String) (lane : Lane) (wire : List Request) : Reader → Prop
  | .reading | .stopping => lane.admitted = lane.next
  | .admitting request ticket =>
      if laneKey request = some key then
        ticket = lane.admitted ∧ lane.next = lane.admitted + 1 ∧ wire[ticket]? = some request
      else lane.admitted = lane.next
  | .gone => lane.admitted ≤ lane.next

theorem Drawn.le {key : String} {lane : Lane} {wire : List Request} {reader : Reader}
    (h : Drawn key lane wire reader) : lane.admitted ≤ lane.next := by
  cases reader with
  | reading => exact le_of_eq h
  | stopping => exact le_of_eq h
  | gone => exact h
  | admitting request ticket =>
    simp only [Drawn] at h
    split at h
    · omega
    · exact le_of_eq h

/-- One lane serves its tickets in turn. -/
structure LaneKept (s : Requests) (conn : ℕ) (key : String) : Prop where
  line : Line (s.laneWire conn key) (s.lanes conn key).turn (s.queue conn key)
  admitted : (s.lanes conn key).admitted = (s.lanes conn key).turn + (s.queue conn key).length
  next : (s.lanes conn key).next = (s.laneWire conn key).length
  drawn : Drawn key (s.lanes conn key) (s.laneWire conn key) (s.readers conn)
  served : ∀ task ∈ (s.queue conn key).tail, task.phase = .entering
  marks : s.laneMarks conn key =
    rounds conn ((s.laneWire conn key).take (s.lanes conn key).turn) ++
      underWay (s.queue conn key).head?

structure Kept (limit : ℕ+) (s : Requests) : Prop where
  active : s.active = s.tasks.length
  bound : s.active ≤ limit
  serials : (s.tasks.map (·.serial)).Nodup
  fresh : ∀ task ∈ s.tasks, task.serial < s.begun
  closed : s.waiting ≠ [] → s.accepting = false
  returned : s.returned → s.accepting = false ∧ s.tasks = []
  lanes : ∀ conn key, s.LaneKept conn key

/-- What a lane's invariant reads of the state. -/
theorem LaneKept.of_same {s t : Requests} {conn : ℕ} {key : String} (h : s.LaneKept conn key)
    (lanes : t.lanes conn key = s.lanes conn key) (queue : t.queue conn key = s.queue conn key)
    (wire : t.laneWire conn key = s.laneWire conn key)
    (marks : t.laneMarks conn key = s.laneMarks conn key)
    (drawn : Drawn key (s.lanes conn key) (s.laneWire conn key) (t.readers conn)) :
    t.LaneKept conn key := by
  refine ⟨?_, ?_, ?_, ?_, ?_, ?_⟩
  · rw [lanes, queue, wire]
    exact h.line
  · rw [lanes, queue]
    exact h.admitted
  · rw [lanes, wire]
    exact h.next
  · rw [lanes, wire]
    exact drawn
  · rw [queue]
    exact h.served
  · rw [lanes, queue, wire, marks]
    exact h.marks

section tasks
variable {s : Requests} {serial : ℕ} {task : Task}

/-- A task found by its serial stands alone between the tasks before and behind it. -/
theorem task_split (serials : (s.tasks.map (·.serial)).Nodup) (found : s.task serial = some task) :
    task.serial = serial ∧ ∃ front back, s.tasks = front ++ task :: back ∧
      ∀ other ∈ front ++ back, other.serial ≠ serial := by
  have hserial : task.serial = serial := by simpa using List.find?_some found
  refine ⟨hserial, ?_⟩
  obtain ⟨front, back, htasks⟩ := List.append_of_mem (List.mem_of_find?_eq_some found)
  refine ⟨front, back, htasks, ?_⟩
  intro other hother heq
  rw [htasks] at serials
  have hperm : (front ++ task :: back).Perm (task :: (front ++ back)) := List.perm_middle
  have hnodup := (hperm.map (·.serial)).nodup_iff.mp serials
  rw [List.map_cons, List.nodup_cons] at hnodup
  exact hnodup.1 (List.mem_map.mpr ⟨other, hother, heq.trans hserial.symm⟩)

theorem setPhase_tasks {front back : List Task} (htasks : s.tasks = front ++ task :: back)
    (hserial : task.serial = serial) (others : ∀ other ∈ front ++ back, other.serial ≠ serial)
    (phase : Phase) :
    (s.setPhase serial phase).tasks = front ++ { task with phase } :: back := by
  have keep : ∀ tasks : List Task, (∀ other ∈ tasks, other.serial ≠ serial) →
      tasks.map (fun task => if task.serial = serial then { task with phase } else task) =
        tasks := by
    intro tasks h
    conv_rhs => rw [← List.map_id tasks]
    exact List.map_congr_left fun other hm => if_neg (h other hm)
  unfold setPhase
  simp only [htasks, List.map_append, List.map_cons, hserial, ↓reduceIte]
  rw [keep front fun o ho => others o (List.mem_append_left _ ho),
    keep back fun o ho => others o (List.mem_append_right _ ho)]

@[simp] theorem setPhase_serials (phase : Phase) :
    (s.setPhase serial phase).tasks.map (·.serial) = s.tasks.map (·.serial) := by
  unfold setPhase
  rw [List.map_map]
  refine List.map_congr_left fun task _ => ?_
  dsimp only [Function.comp]
  split <;> rfl

@[simp] theorem setPhase_length (phase : Phase) :
    (s.setPhase serial phase).tasks.length = s.tasks.length := by
  simp [setPhase]

end tasks

section lanes
variable {s : Requests} {conn c : ℕ} {key k : String} {request : Request} {f : Lane → Lane}

theorem editLane_self (h : laneKey request = some key) :
    (s.editLane conn request f).lanes conn key = f (s.lanes conn key) := by
  simp [editLane, h]

theorem editLane_other (h : ¬(c = conn ∧ laneKey request = some k)) :
    (s.editLane conn request f).lanes c k = s.lanes c k := by
  unfold editLane
  split
  next key hkey =>
    by_cases hc : c = conn
    · subst hc
      have hk : k ≠ key := fun heq => h ⟨rfl, heq ▸ hkey⟩
      simp [hk]
    · simp [hc]
  next => rfl

/-- Editing a lane changes nothing but lanes. -/
theorem editLane_eq : s.editLane conn request f =
    { s with lanes := (s.editLane conn request f).lanes } := by
  unfold editLane
  split <;> rfl

@[simp] theorem editLane_tasks : (s.editLane conn request f).tasks = s.tasks := by rw [editLane_eq]
@[simp] theorem editLane_readers : (s.editLane conn request f).readers = s.readers := by
  rw [editLane_eq]
@[simp] theorem editLane_wire : (s.editLane conn request f).wire = s.wire := by rw [editLane_eq]
@[simp] theorem editLane_marks : (s.editLane conn request f).marks = s.marks := by rw [editLane_eq]
@[simp] theorem editLane_active : (s.editLane conn request f).active = s.active := by
  rw [editLane_eq]
@[simp] theorem editLane_begun : (s.editLane conn request f).begun = s.begun := by rw [editLane_eq]
@[simp] theorem editLane_waiting : (s.editLane conn request f).waiting = s.waiting := by
  rw [editLane_eq]
@[simp] theorem editLane_accepting : (s.editLane conn request f).accepting = s.accepting := by
  rw [editLane_eq]
@[simp] theorem editLane_returned : (s.editLane conn request f).returned = s.returned := by
  rw [editLane_eq]

end lanes

section steps
variable {limit : ℕ+} {s t : Requests} (h : Kept limit s)
include h

/-- A reader that draws no ticket and holds none changes nothing else. -/
theorem kept_setReader {conn : ℕ} {reader : Reader}
    (drawn : ∀ key lane wire, Drawn key lane wire (s.readers conn) → Drawn key lane wire reader) :
    Kept limit (s.setReader conn reader) where
  active := h.active
  bound := h.bound
  serials := h.serials
  fresh := h.fresh
  closed := h.closed
  returned := h.returned
  lanes := by
    intro c k
    refine (h.lanes c k).of_same rfl rfl rfl rfl ?_
    have hd := (h.lanes c k).drawn
    by_cases hc : c = conn
    · subst hc
      simpa [setReader] using drawn _ _ _ hd
    · simpa [setReader, hc] using hd

theorem kept_hangUp {conn : ℕ} (reading : s.readers conn = .reading) :
    Kept limit (s.setReader conn .gone) := by
  refine kept_setReader h fun key lane wire hd => ?_
  rw [reading] at hd
  exact le_of_eq hd

omit h in
theorem laneKept_drew {conn c : ℕ} {k : String} {request : Request}
    (reading : s.readers conn = .reading) (hl : s.LaneKept c k) :
    (s.drew conn request).LaneKept c k := by
  have hqueue : (s.drew conn request).queue c k = s.queue c k := by
    simp [drew, queue, setReader]
  have hmarks : (s.drew conn request).laneMarks c k = s.laneMarks c k := by
    simp [drew, laneMarks, setReader]
  have hwire : (s.drew conn request).laneWire c k = s.laneWire c k ++
      if c = conn ∧ laneKey request = some k then [request] else [] := by
    unfold laneWire drew
    by_cases hc : c = conn
    · subst hc
      by_cases hk : laneKey request = some k <;> simp [setReader, hk]
    · simp [setReader, hc]
  by_cases mine : c = conn ∧ laneKey request = some k
  · obtain ⟨rfl, hk⟩ := mine
    have hd : (s.lanes c k).admitted = (s.lanes c k).next := by
      have hd := hl.drawn
      rw [reading] at hd
      exact hd
    have hlanes : (s.drew c request).lanes c k =
        { s.lanes c k with next := (s.lanes c k).next + 1 } := editLane_self hk
    have hnext := hl.next
    have hadmitted := hl.admitted
    rw [if_pos ⟨rfl, hk⟩] at hwire
    refine ⟨?_, ?_, ?_, ?_, ?_, ?_⟩
    · rw [hqueue, hwire, hlanes]
      exact hl.line.extend _
    · rw [hqueue, hlanes]
      exact hadmitted
    · rw [hlanes, hwire, List.length_append, List.length_singleton, ← hnext]
    · rw [hlanes, hwire]
      simp only [drew, setReader, Function.update_self, Drawn, hk, ↓reduceIte, Option.map_some,
        Option.getD_some]
      refine ⟨hd.symm, by rw [hd], ?_⟩
      rw [hnext, List.getElem?_append_right le_rfl]
      simp
    · rw [hqueue]
      exact hl.served
    · rw [hmarks, hqueue, hlanes, hwire, List.take_append_of_le_length (by dsimp only; omega)]
      exact hl.marks
  · rw [if_neg mine, List.append_nil] at hwire
    refine hl.of_same (editLane_other mine) hqueue hwire hmarks ?_
    have hd := hl.drawn
    by_cases hc : c = conn
    · subst hc
      have hk : laneKey request ≠ some k := fun hk => mine ⟨rfl, hk⟩
      rw [reading] at hd
      simpa [drew, setReader, Drawn, hk] using hd
    · simpa [drew, setReader, hc] using hd

theorem kept_receive {conn : ℕ} {request : Request} (step : s.receive conn request = some t) :
    Kept limit t := by
  unfold receive at step
  split at step
  next reading =>
    split at step
    · cases step
      refine kept_setReader h fun key lane wire hd => ?_
      rw [reading] at hd
      exact hd
    · cases step
      refine ⟨?_, ?_, ?_, ?_, ?_, ?_, fun c k => laneKept_drew reading (h.lanes c k)⟩
      · simpa [drew, setReader] using h.active
      · simpa [drew, setReader] using h.bound
      · simpa [drew, setReader] using h.serials
      · simpa [drew, setReader] using h.fresh
      · simpa [drew, setReader] using h.closed
      · simpa [drew, setReader] using h.returned
  next => cases step

omit h in
/-- A request joins the end of its lane. -/
theorem laneKept_spawned {conn c : ℕ} {k : String} {request : Request} {ticket : ℕ}
    (admitting : s.readers conn = .admitting request ticket) (hl : s.LaneKept c k) :
    (s.spawned conn request ticket).LaneKept c k := by
  let task : Task := { serial := s.begun, conn, request, ticket, phase := .entering }
  have hqueue : (s.spawned conn request ticket).queue c k =
      s.queue c k ++ if conn = c ∧ laneKey request = some k then [task] else [] := by
    simp only [spawned, queue, setReader, editLane_tasks, List.filter_append]
    congr 1
    by_cases hc : conn = c ∧ laneKey request = some k <;> simp [standing, onLane, hc, task]
  have hwire : (s.spawned conn request ticket).laneWire c k = s.laneWire c k := by
    simp [spawned, laneWire, setReader]
  have hmarks : (s.spawned conn request ticket).laneMarks c k = s.laneMarks c k := by
    simp [spawned, laneMarks, setReader]
  have hd := hl.drawn
  by_cases mine : conn = c ∧ laneKey request = some k
  · obtain ⟨rfl, hk⟩ := mine
    have hlanes : (s.spawned conn request ticket).lanes conn k =
        { s.lanes conn k with admitted := (s.lanes conn k).admitted + 1 } := editLane_self hk
    have hreader : (s.spawned conn request ticket).readers conn = .reading := by
      simp [spawned, setReader]
    have hadmitted := hl.admitted
    rw [admitting] at hd
    simp only [Drawn, hk, ↓reduceIte] at hd
    obtain ⟨hticket, hnext, hrequest⟩ := hd
    rw [if_pos ⟨rfl, hk⟩] at hqueue
    refine ⟨?_, ?_, ?_, ?_, ?_, ?_⟩
    · rw [hqueue, hwire, hlanes, line_append]
      exact ⟨hl.line, hticket.trans hadmitted, by rw [← hadmitted, ← hticket]; exact hrequest,
        trivial⟩
    · rw [hqueue, hlanes, List.length_append, List.length_singleton, hadmitted]
      rfl
    · rw [hlanes, hwire]
      exact hl.next
    · rw [hlanes, hwire, hreader]
      exact hnext.symm
    · rw [hqueue]
      intro other hother
      cases hq : s.queue conn k with
      | nil =>
        rw [hq] at hother
        cases hother
      | cons first rest =>
        rw [hq, List.cons_append, List.tail_cons] at hother
        rcases List.mem_append.mp hother with hother | hother
        · exact hl.served other (by rw [hq]; exact hother)
        · rw [List.mem_singleton.mp hother]
    · rw [hmarks, hwire, hlanes, hqueue, hl.marks]
      cases hq : s.queue conn k with
      | nil => rfl
      | cons first rest => rfl
  · rw [if_neg mine, List.append_nil] at hqueue
    refine hl.of_same (editLane_other fun hc => mine ⟨hc.1.symm, hc.2⟩) hqueue hwire hmarks ?_
    by_cases hc : c = conn
    · subst hc
      have hk : laneKey request ≠ some k := fun hk => mine ⟨rfl, hk⟩
      rw [admitting] at hd
      simpa [spawned, setReader, Drawn, hk] using hd
    · simpa [spawned, setReader, hc] using hd

theorem kept_begin {conn : ℕ} (step : s.begin limit conn = some t) : Kept limit t := by
  unfold begin at step
  split at step
  next request ticket admitting =>
    split at step
    · cases step
      refine kept_setReader h fun key lane wire hd => hd.le
    next accepting =>
      split at step
      next room =>
        cases step
        refine ⟨?_, ?_, ?_, ?_, ?_, ?_, fun c k => laneKept_spawned admitting (h.lanes c k)⟩
        · simpa [spawned, setReader] using h.active
        · simpa [spawned, setReader] using Nat.succ_le_of_lt room
        · simp only [spawned, setReader, editLane_tasks, List.map_append]
          refine List.nodup_append.mpr ⟨h.serials, by simp, ?_⟩
          rintro a ha b hb rfl
          obtain ⟨task, htask, rfl⟩ := List.mem_map.mp ha
          have hlt := h.fresh task htask
          have heq : task.serial = s.begun := by simpa using List.mem_singleton.mp hb
          omega
        · intro task htask
          show task.serial < (s.editLane conn request _).begun + 1
          have htask : task ∈ (s.editLane conn request _).tasks ++ [_] := htask
          rw [editLane_tasks] at htask
          rw [editLane_begun]
          rcases List.mem_append.mp htask with htask | htask
          · exact (h.fresh task htask).trans (Nat.lt_succ_self _)
          · rw [List.mem_singleton.mp htask]
            simp
        · simpa [spawned, setReader] using h.closed
        · intro hr
          have hr : s.returned = true := by simpa [spawned, setReader] using hr
          rw [(h.returned hr).1] at accepting
          exact absurd rfl accepting
      next => cases step
  next => cases step

omit h in
/-- A task changes its phase where it stands. -/
theorem queue_setPhase {serial : ℕ} {task : Task} (phase : Phase) {front back : List Task}
    (tasks : s.tasks = front ++ task :: back) (hserial : task.serial = serial)
    (others : ∀ other ∈ front ++ back, other.serial ≠ serial) (c : ℕ) (k : String) :
    s.queue c k = front.filter (standing c k) ++ [task].filter (standing c k) ++
        back.filter (standing c k) ∧
      (s.setPhase serial phase).queue c k = front.filter (standing c k) ++
        [{ task with phase }].filter (standing c k) ++ back.filter (standing c k) := by
  have hset := setPhase_tasks tasks hserial others phase
  constructor
  · unfold queue
    rw [tasks, ← List.singleton_append, ← List.append_assoc, List.filter_append, List.filter_append]
  · unfold queue
    rw [hset, ← List.singleton_append, ← List.append_assoc, List.filter_append, List.filter_append]

omit h in
theorem laneMarks_mark {c conn : ℕ} {k : String} {request : Request} (mark : Mark)
    (hconn : mark.conn = conn) (hrequest : mark.request = request) :
    (s.mark mark).laneMarks c k =
      s.laneMarks c k ++ if conn = c ∧ laneKey request = some k then [mark] else [] := by
  subst hconn hrequest
  simp only [Requests.mark, laneMarks, List.filter_append]
  congr 1
  by_cases hm : mark.conn = c ∧ laneKey mark.request = some k <;> simp [hm]

omit h in
/-- A task whose turn it is stands first in its lane. -/
theorem laneKept_enter {serial c : ℕ} {k : String} {task : Task} {front back : List Task}
    (tasks : s.tasks = front ++ task :: back) (hserial : task.serial = serial)
    (others : ∀ other ∈ front ++ back, other.serial ≠ serial) (phase : task.phase = .entering)
    (free : s.waits task = false) (hl : s.LaneKept c k) :
    ((s.setPhase serial .running).mark (.began task.conn task.request)).LaneKept c k := by
  let u := (s.setPhase serial .running).mark (.began task.conn task.request)
  obtain ⟨hold, hnew⟩ := queue_setPhase .running tasks hserial others c k
  have hmarks : u.laneMarks c k = s.laneMarks c k ++
      if task.conn = c ∧ laneKey task.request = some k then [.began task.conn task.request]
      else [] := laneMarks_mark _ rfl rfl
  by_cases mine : task.conn = c ∧ laneKey task.request = some k
  · obtain ⟨hc, hk⟩ := mine
    rw [filter_standing (by simp [standing, onLane, hc, hk, phase])] at hold
    rw [filter_standing (by simp [standing, onLane, hc, hk])] at hnew
    have hturn : task.ticket = (s.lanes c k).turn := by
      simp only [waits, phase, laneOf, hk, hc, Option.map_some, Option.any_some, decide_true,
        Bool.true_and, decide_eq_false_iff_not, not_not] at free
      exact free.symm
    have hline := hl.line
    rw [hold, List.append_assoc, line_append] at hline
    obtain ⟨-, hticket, hrequest, hback⟩ := hline
    have hfront : front.filter (standing c k) = [] := by
      rw [← List.length_eq_zero_iff]
      omega
    rw [hfront, List.nil_append] at hold hnew
    have hqueue : u.queue c k = { task with phase := .running } ::
        back.filter (standing c k) := hnew
    have hqueue' : s.queue c k =
        task :: back.filter (standing c k) := hold
    have hlen : (s.queue c k).length = (u.queue c k).length := by rw [hqueue, hqueue']; rfl
    refine ⟨?_, ?_, hl.next, hl.drawn, ?_, ?_⟩
    · have hline := hl.line
      rw [hqueue'] at hline
      show Line _ _ (u.queue c k)
      rw [hqueue]
      exact hline
    · exact hl.admitted.trans (congrArg _ hlen)
    · show ∀ task ∈ (u.queue c k).tail, _
      have hserved := hl.served
      rw [hqueue'] at hserved
      rw [hqueue]
      exact hserved
    · show u.laneMarks c k = rounds c ((s.laneWire c k).take (s.lanes c k).turn) ++
        underWay (u.queue c k).head?
      rw [hmarks, if_pos ⟨hc, hk⟩, hl.marks, hqueue, hqueue']
      simp [underWay, phase]
  · have away (phase : Phase) : standing c k { task with phase } = false := by
      simpa [standing, onLane] using fun hc hk => absurd ⟨hc, hk⟩ mine
    have hsame : u.queue c k = s.queue c k := by
      refine hnew.trans (Eq.trans ?_ hold.symm)
      rw [filter_away (away .running), filter_away (away task.phase)]
    rw [if_neg mine, List.append_nil] at hmarks
    exact hl.of_same rfl hsame rfl hmarks hl.drawn

omit h in
/-- A task that leaves its lane was first in it, and the next ticket is served. -/
theorem laneKept_leave {serial c : ℕ} {k : String} {task : Task} {front back : List Task}
    (tasks : s.tasks = front ++ task :: back) (hserial : task.serial = serial)
    (others : ∀ other ∈ front ++ back, other.serial ≠ serial) (phase : task.phase = .running)
    (hl : s.LaneKept c k) :
    (((s.editLane task.conn task.request fun lane => { lane with turn := lane.turn + 1 }).setPhase
      serial .left).mark (.ended task.conn task.request)).LaneKept c k := by
  let e := s.editLane task.conn task.request fun lane => { lane with turn := lane.turn + 1 }
  let u := (e.setPhase serial .left).mark (.ended task.conn task.request)
  have htasks : e.tasks = front ++ task :: back := editLane_tasks.trans tasks
  obtain ⟨hold, hnew⟩ := queue_setPhase .left htasks hserial others c k
  have hsame : e.queue c k = s.queue c k := by simp [e, queue]
  have hwire : u.laneWire c k = s.laneWire c k := by
    show (e.wire c).filter _ = _
    rw [editLane_wire]
    rfl
  have hmarks : u.laneMarks c k = s.laneMarks c k ++
      if task.conn = c ∧ laneKey task.request = some k then [.ended task.conn task.request]
      else [] := by
    refine (laneMarks_mark (.ended task.conn task.request) rfl rfl).trans ?_
    congr 1
    show e.marks.filter _ = _
    rw [editLane_marks]
    rfl
  have hreaders : u.readers = s.readers := editLane_readers
  rw [hsame] at hold
  rw [filter_away (by simp [standing]), List.append_nil] at hnew
  by_cases mine : task.conn = c ∧ laneKey task.request = some k
  · obtain ⟨hc, hk⟩ := mine
    rw [filter_standing (by simp [standing, onLane, hc, hk, phase])] at hold
    have hlanes : u.lanes c k = { s.lanes c k with turn := (s.lanes c k).turn + 1 } := by
      rw [← hc]
      exact editLane_self hk
    have hfront : front.filter (standing c k) = [] := by
      cases hf : front.filter (standing c k) with
      | nil => rfl
      | cons first rest =>
        have hserved := hl.served task (by rw [hold, hf]; simp)
        rw [phase] at hserved
        cases hserved
    rw [hfront, List.nil_append] at hold hnew
    have hqueue : u.queue c k =
        back.filter (standing c k) := hnew
    have hline := hl.line
    have hadmitted := hl.admitted
    have hserved := hl.served
    have hmarked := hl.marks
    rw [hold] at hline hadmitted hserved hmarked
    obtain ⟨-, hrequest, hback⟩ := hline
    refine ⟨?_, ?_, ?_, ?_, ?_, ?_⟩
    · rw [hqueue, hwire, hlanes]
      exact hback
    · rw [hqueue, hlanes]
      simp only [List.length_append, List.length_singleton] at hadmitted
      show (s.lanes c k).admitted =
        (s.lanes c k).turn + 1 + (back.filter (standing c k)).length
      omega
    · rw [hlanes, hwire]
      exact hl.next
    · rw [hlanes, hwire, hreaders]
      exact hl.drawn
    · rw [hqueue]
      exact fun other hother => hserved other (List.mem_of_mem_tail hother)
    · rw [hmarks, if_pos ⟨hc, hk⟩, hmarked, hwire, hlanes, hqueue, List.take_add_one, hrequest,
        Option.toList_some, rounds_append]
      have hidle : underWay (back.filter (standing c k)).head? = [] := by
        cases hb : back.filter (standing c k) with
        | nil => rfl
        | cons first rest =>
          have hfirst := hserved first (by rw [hb]; simp)
          simp [underWay, hfirst]
      rw [hidle, List.append_nil]
      simp [rounds, underWay, phase, hc]
  · have away : standing c k task = false := by
      simpa [standing, onLane] using fun hc hk => absurd ⟨hc, hk⟩ mine
    rw [filter_away away, List.append_nil] at hold
    rw [if_neg mine, List.append_nil] at hmarks
    refine hl.of_same (editLane_other fun hc => mine ⟨hc.1.symm, hc.2⟩) (hnew.trans hold.symm)
      hwire hmarks ?_
    rw [hreaders]
    exact hl.drawn

theorem fresh_setPhase {serial : ℕ} (phase : Phase) :
    ∀ task ∈ (s.setPhase serial phase).tasks, task.serial < s.begun := by
  intro task htask
  have hmem : task.serial ∈ (s.setPhase serial phase).tasks.map (·.serial) :=
    List.mem_map_of_mem htask
  rw [setPhase_serials] at hmem
  obtain ⟨old, hold, heq⟩ := List.mem_map.mp hmem
  exact heq ▸ h.fresh old hold

theorem kept_enter {serial : ℕ} (step : s.enter serial = some t) : Kept limit t := by
  unfold enter at step
  split at step
  next task found =>
    split at step
    next ready =>
      cases step
      obtain ⟨hserial, front, back, tasks, others⟩ := task_split h.serials found
      have hset := setPhase_tasks tasks hserial others .running
      refine ⟨?_, h.bound, ?_, ?_, h.closed, fun hr => ?_, fun c k =>
        laneKept_enter tasks hserial others ready.1 (by simpa using ready.2) (h.lanes c k)⟩
      · exact h.active.trans (setPhase_length _).symm
      · show ((s.setPhase serial .running).tasks.map _).Nodup
        rw [setPhase_serials]
        exact h.serials
      · exact fresh_setPhase h .running
      · have hnone := (h.returned hr).2
        rw [tasks] at hnone
        simp at hnone
    next => cases step
  next => cases step

theorem kept_leave {serial : ℕ} (step : s.leave serial = some t) : Kept limit t := by
  unfold leave at step
  split at step
  next task found =>
    split at step
    next running =>
      cases step
      obtain ⟨hserial, front, back, tasks, others⟩ := task_split h.serials found
      refine ⟨?_, ?_, ?_, ?_, ?_, fun hr => ?_, fun c k =>
        laneKept_leave tasks hserial others running (h.lanes c k)⟩
      · show (s.editLane task.conn task.request _).active = _
        refine editLane_active.trans (h.active.trans ?_)
        exact (congrArg List.length editLane_tasks).symm.trans (setPhase_length _).symm
      · show (s.editLane task.conn task.request _).active ≤ _
        rw [editLane_active]
        exact h.bound
      · show (((s.editLane task.conn task.request _).setPhase serial .left).tasks.map _).Nodup
        rw [setPhase_serials, editLane_tasks]
        exact h.serials
      · show ∀ other ∈ ((s.editLane task.conn task.request _).setPhase serial .left).tasks,
          other.serial < (s.editLane task.conn task.request _).begun
        intro other hother
        have hmem := List.mem_map_of_mem (f := Task.serial) hother
        rw [setPhase_serials, editLane_tasks] at hmem
        obtain ⟨old, hold, heq⟩ := List.mem_map.mp hmem
        rw [editLane_begun]
        exact heq ▸ h.fresh old hold
      · show (s.editLane task.conn task.request _).waiting ≠ [] →
          (s.editLane task.conn task.request _).accepting = false
        rw [editLane_waiting, editLane_accepting]
        exact h.closed
      · have hr : (s.editLane task.conn task.request _).returned = true := hr
        rw [editLane_returned] at hr
        have hnone := (h.returned hr).2
        rw [tasks] at hnone
        simp at hnone
    next => cases step
  next => cases step

theorem kept_finish {serial : ℕ} (step : s.finish serial = some t) : Kept limit t := by
  unfold finish at step
  split at step
  next task found =>
    split at step
    next left =>
      cases step
      obtain ⟨hserial, front, back, tasks, others⟩ := task_split h.serials found
      have hkeep : s.tasks.filter (·.serial ≠ serial) = front ++ back := by
        rw [tasks, List.filter_append, List.filter_cons_of_neg (by simpa using hserial),
          ← List.filter_append]
        exact List.filter_eq_self.mpr fun other hother => by simpa using others other hother
      have hactive : s.active = (front ++ back).length + 1 := by
        rw [h.active, tasks]
        simp only [List.length_append, List.length_cons]
        omega
      have hsub : (front ++ back).Sublist s.tasks := by
        rw [tasks]
        exact (List.sublist_cons_self _ _).append_left front
      refine ⟨?_, ?_, ?_, ?_, h.closed, fun hr => ?_, fun c k => ?_⟩
      · show s.active - 1 = (s.tasks.filter _).length
        rw [hkeep]
        omega
      · exact (Nat.sub_le _ _).trans h.bound
      · show ((s.tasks.filter _).map _).Nodup
        rw [hkeep]
        exact h.serials.sublist (hsub.map _)
      · intro other hother
        exact h.fresh other (List.mem_of_mem_filter hother)
      · have hnone := (h.returned hr).2
        rw [tasks] at hnone
        simp at hnone
      · refine (h.lanes c k).of_same rfl ?_ rfl rfl (h.lanes c k).drawn
        show (s.tasks.filter _).filter (standing c k) = s.tasks.filter (standing c k)
        rw [hkeep, tasks, List.filter_append, List.filter_append,
          List.filter_cons_of_neg (by simp [standing, left])]
    next => cases step
  next => cases step

theorem kept_close {closer : Closer} (step : s.close closer = some t) : Kept limit t := by
  unfold close at step
  split at step
  · cases step
    exact ⟨h.active, h.bound, h.serials, h.fresh, fun _ => rfl, fun hr => ⟨rfl, (h.returned hr).2⟩,
      fun c k => (h.lanes c k).of_same rfl rfl rfl rfl (h.lanes c k).drawn⟩
  · cases step

theorem kept_drained {closer : Closer} (step : s.drained closer = some t) : Kept limit t := by
  unfold drained at step
  split at step
  next done =>
    have hclosed := h.closed (List.ne_nil_of_mem done.1)
    have hnone : s.tasks = [] := List.length_eq_zero_iff.mp (h.active.symm.trans done.2)
    have hd : Kept limit
        { s with waiting := s.waiting.filter (· ≠ closer), returned := true } :=
      ⟨h.active, h.bound, h.serials, h.fresh, fun _ => hclosed, fun _ => ⟨hclosed, hnone⟩,
        fun c k => (h.lanes c k).of_same rfl rfl rfl rfl (h.lanes c k).drawn⟩
    cases closer with
    | reader conn =>
      cases step
      exact kept_setReader hd fun key lane wire hdrawn => hdrawn.le
    | daemon thread =>
      cases step
      exact hd
  next => cases step

theorem kept_step {act : Act} (step : Requests.step limit s act = some t) : Kept limit t := by
  cases act with
  | receive conn request => exact kept_receive h step
  | hangUp conn =>
    simp only [Requests.step] at step
    split at step
    next reading =>
      cases step
      exact kept_hangUp h reading
    next => cases step
  | begin conn => exact kept_begin h step
  | enter serial => exact kept_enter h step
  | leave serial => exact kept_leave h step
  | finish serial => exact kept_finish h step
  | close closer => exact kept_close h step
  | drained closer => exact kept_drained h step

end steps

section runs
variable {limit : ℕ+} {s : Requests}

theorem kept_start : Kept limit {} where
  active := rfl
  bound := Nat.zero_le _
  serials := List.nodup_nil
  fresh := fun task ht => by cases ht
  closed := fun hw => absurd rfl hw
  returned := fun hr => by cases hr
  lanes := fun c k => ⟨trivial, rfl, rfl, rfl, fun task ht => (by cases ht), rfl⟩

abbrev Reachable (limit : ℕ+) : Requests → Prop := (machine limit).Reach fun _ _ => True

theorem Reachable.kept (h : Reachable limit s) : Kept limit s := by
  refine h.invariant ?_ ?_
  · rintro _ rfl
    exact kept_start
  · intro s act t _ hs _ step
    exact kept_step hs step

/-- Somebody in a lane with tasks can go on: the first of them. -/
theorem Kept.progress (h : Kept limit s) {task : Task} (held : task ∈ s.tasks) :
    ∃ other ∈ s.tasks, s.waits other = false := by
  by_cases hw : s.waits task = false
  · exact ⟨task, held, hw⟩
  · have hw : s.waits task = true := by simpa using hw
    simp only [waits, laneOf, Bool.and_eq_true, decide_eq_true_eq] at hw
    obtain ⟨hphase, hlane⟩ := hw
    cases hk : laneKey task.request with
    | none => simp [hk] at hlane
    | some key =>
      have hmem : task ∈ s.queue task.conn key :=
        List.mem_filter.mpr ⟨held, by simp [standing, onLane, hk, hphase]⟩
      have hl := h.lanes task.conn key
      cases hq : s.queue task.conn key with
      | nil =>
        rw [hq] at hmem
        cases hmem
      | cons first rest =>
        have hline := hl.line
        rw [hq] at hline
        have hfirst : first ∈ s.queue task.conn key := by rw [hq]; exact List.mem_cons_self ..
        obtain ⟨hin, hstands⟩ := List.mem_filter.mp hfirst
        simp only [standing, onLane, Bool.and_eq_true, decide_eq_true_eq] at hstands
        obtain ⟨⟨hconn, hkey⟩, -⟩ := hstands
        refine ⟨first, hin, ?_⟩
        simp [waits, laneOf, hkey, hconn, hline.1]

/-- A request of the lane is answered only in its turn. -/
theorem Kept.inOrder (h : Kept limit s) (conn : ℕ) (key : String) :
    ∃ n, s.laneMarks conn key = rounds conn ((s.laneWire conn key).take n) ∨
      ∃ request, (s.laneWire conn key)[n]? = some request ∧ s.laneMarks conn key =
        rounds conn ((s.laneWire conn key).take n) ++ [.began conn request] := by
  have hl := h.lanes conn key
  refine ⟨(s.lanes conn key).turn, ?_⟩
  have hmarks := hl.marks
  cases hq : s.queue conn key with
  | nil =>
    rw [hq] at hmarks
    exact .inl (hmarks.trans (List.append_nil _))
  | cons first rest =>
    have hline := hl.line
    rw [hq] at hmarks hline
    have hfirst : first ∈ s.queue conn key := by rw [hq]; exact List.mem_cons_self ..
    have hstands := (List.mem_filter.mp hfirst).2
    simp only [standing, onLane, Bool.and_eq_true, decide_eq_true_eq] at hstands
    by_cases hrunning : first.phase = .running
    · right
      refine ⟨first.request, hline.2.1, ?_⟩
      rw [hmarks]
      simp [underWay, hrunning, hstands.1.1]
    · left
      rw [hmarks]
      simp [underWay, hrunning]

/-- Only the first task of a lane runs. -/
theorem Kept.alone (h : Kept limit s) (conn : ℕ) (key : String) {task : Task}
    (held : task ∈ s.tasks) (on : onLane conn key task) (running : task.phase = .running) :
    (s.queue conn key).head? = some task := by
  have hl := h.lanes conn key
  have hmem : task ∈ s.queue conn key :=
    List.mem_filter.mpr ⟨held, by simp [standing, on, running]⟩
  cases hq : s.queue conn key with
  | nil =>
    rw [hq] at hmem
    cases hmem
  | cons first rest =>
    rw [hq] at hmem
    rcases List.mem_cons.mp hmem with rfl | hrest
    · rfl
    · have hserved := hl.served task (by rw [hq]; exact hrest)
      rw [running] at hserved
      cases hserved

/-- Past a `close_and_wait` that returned, no task begins. -/
theorem closed_step {act : Act} {t : Requests} (h : Kept limit s) (returned : s.returned)
    (step : Requests.step limit s act = some t) : t.returned = true ∧ t.begun = s.begun := by
  obtain ⟨hclosed, hnone⟩ := h.returned returned
  have absent (serial : ℕ) : s.task serial = none := by simp [task, hnone]
  cases act with
  | receive conn request =>
    simp only [Requests.step, receive] at step
    split at step
    · split at step <;> cases step <;> simp [drew, setReader, returned]
    · cases step
  | hangUp conn =>
    simp only [Requests.step] at step
    split at step <;> cases step
    exact ⟨returned, rfl⟩
  | begin conn =>
    simp only [Requests.step, begin, hclosed] at step
    split at step <;> cases step
    exact ⟨returned, rfl⟩
  | enter serial => simp [Requests.step, enter, absent] at step
  | leave serial => simp [Requests.step, leave, absent] at step
  | finish serial => simp [Requests.step, finish, absent] at step
  | close closer =>
    simp only [Requests.step, close] at step
    split at step <;> cases step
    exact ⟨returned, rfl⟩
  | drained closer =>
    simp only [Requests.step, drained] at step
    split at step
    · cases closer <;> cases step <;> exact ⟨rfl, rfl⟩
    · cases step

/-- A closed gate never lets another request begin. -/
theorem closed_exec {acts : List Act} {t : Requests} (h : Kept limit s) (returned : s.returned)
    (run : (machine limit).exec s acts = some t) :
    t.tasks = [] ∧ t.active = 0 ∧ t.begun = s.begun := by
  induction acts generalizing s with
  | nil =>
    cases run
    have hnone := (h.returned returned).2
    exact ⟨hnone, h.active.trans (by rw [hnone]; rfl), rfl⟩
  | cons act rest ih =>
    obtain ⟨u, hu, hrest⟩ := Option.bind_eq_some_iff.mp run
    have hstep := closed_step h returned hu
    obtain ⟨htasks, hactive, hbegun⟩ := ih (kept_step h hu) hstep.1 hrest
    exact ⟨htasks, hactive, hbegun.trans hstep.2⟩

/-- What the request threads keep, whatever arrives on however many connections. -/
structure Orderly (limit : ℕ+) (s : Requests) : Prop where
  /-- The answers of a lane began and ended one after the other, in wire order. -/
  inOrder : ∀ conn key, ∃ n,
    s.laneMarks conn key = rounds conn ((s.laneWire conn key).take n) ∨
      ∃ request, (s.laneWire conn key)[n]? = some request ∧ s.laneMarks conn key =
        rounds conn ((s.laneWire conn key).take n) ++ [.began conn request]
  oneAtATime : ∀ task ∈ s.tasks, ∀ other ∈ s.tasks, task.phase = .running →
    other.phase = .running → task.conn = other.conn →
      laneKey task.request = laneKey other.request → (laneKey task.request).isSome → task = other
  bounded : s.active = s.tasks.length ∧ s.active ≤ limit
  progress : s.tasks ≠ [] → ∃ task ∈ s.tasks, s.waits task = false
  barrier : s.returned → ∀ acts t, (machine limit).exec s acts = some t →
    t.tasks = [] ∧ t.active = 0 ∧ t.begun = s.begun

/-- Lanes are served in order, the gate bounds and never stalls them, and closing it is a
barrier. -/
theorem requests_orderly (h : Reachable limit s) : Orderly limit s where
  inOrder := h.kept.inOrder
  oneAtATime := by
    intro task ht other ho hrun hrun' hconn hkey hsome
    obtain ⟨key, hk⟩ := Option.isSome_iff_exists.mp hsome
    have hfirst := h.kept.alone task.conn key ht (by simp [onLane, hk]) hrun
    have hother := h.kept.alone task.conn key ho
      (by simp [onLane, hconn, ← hkey, hk]) hrun'
    exact Option.some.inj (hfirst.symm.trans hother)
  bounded := ⟨h.kept.active, h.kept.bound⟩
  progress := by
    intro hne
    obtain ⟨task, ht⟩ := List.exists_mem_of_ne_nil _ hne
    exact h.kept.progress ht
  barrier := fun returned _ _ run => closed_exec h.kept returned run

/-- Two requests for one session fill the gate while the second waits for its turn, and a shutdown
waits for both. -/
theorem requests_orderly_full : ∃ s, s.active = 2 ∧ s.accepting = false ∧
    s.tasks.map s.waits = [false, true] ∧ Orderly 2 s := by
  have run : ∃ s, (machine 2).exec {} [.receive 1 ⟨1, "open", some "chat", none⟩, .begin 1,
      .receive 1 ⟨2, "send", some "chat", none⟩, .begin 1, .enter 0,
      .receive 2 ⟨1, "shutdown", none, none⟩, .close (.reader 2)] = some s ∧
      s.active = 2 ∧ s.accepting = false ∧ s.tasks.map s.waits = [false, true] :=
    ⟨_, Option.eq_some_of_isSome (by decide +kernel), by decide +kernel, by decide +kernel,
      by decide +kernel⟩
  obtain ⟨s, hs, active, accepting, waits⟩ := run
  have start : Reachable 2 {} := .init rfl
  exact ⟨s, active, accepting, waits,
    requests_orderly (start.exec (Machine.along_of_forall (fun _ _ => trivial) _ _) hs)⟩

end runs
end Requests
end SiliconOmni.Daemon
