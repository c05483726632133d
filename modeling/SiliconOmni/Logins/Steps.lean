import SiliconOmni.Logins.Registry

/-! What one act does to the logins, and that every call has a token and a child of its own. -/
namespace SiliconOmni.Logins

/-- What a call goes on with once its child is started. -/
def Pc.begun : Pc → Option (Begin × ℕ)
  | spawned call _ token | entered call token _ | dead call token _ | waiting call token
  | silent call token | giving call token _ | stopping _ (.wait call token) => some (call, token)
  | _ => none

/-- The token of a child that is still to be started. -/
def Pc.unborn : Pc → Option ℕ
  | naming _ _ token => some token
  | _ => none

/-- The token that a call has drawn. -/
def Pc.drawn (pc : Pc) : Option ℕ := pc.unborn.or (pc.begun.map (·.2))

/-- The child that a thread has started and is still to enter. -/
def Pc.unentered : Pc → Option ℕ
  | spawned _ _ token => some token
  | _ => none

/-- The child that a thread has found dead. -/
def Pc.deceased : Pc → Option ℕ
  | dead _ token _ => some token
  | _ => none

@[simp] theorem Pc.after_holds (tokens : List ℕ) (next : Next) :
    (Pc.after tokens next).holds = tokens := by
  cases tokens with
  | nil => cases next <;> rfl
  | cons => rfl

@[simp] theorem Pc.after_unentered (tokens : List ℕ) (next : Next) :
    (Pc.after tokens next).unentered = none := by
  cases tokens with
  | nil => cases next <;> rfl
  | cons => rfl

@[simp] theorem Pc.after_checks (tokens : List ℕ) (next : Next) :
    (Pc.after tokens next).checks = none := by
  cases tokens with
  | nil => cases next <;> rfl
  | cons => rfl

@[simp] theorem Pc.after_unborn (tokens : List ℕ) (next : Next) :
    (Pc.after tokens next).unborn = none := by
  cases tokens with
  | nil => cases next <;> rfl
  | cons => rfl

@[simp] theorem Pc.after_deceased (tokens : List ℕ) (next : Next) :
    (Pc.after tokens next).deceased = none := by
  cases tokens with
  | nil => cases next <;> rfl
  | cons => rfl

/-- What `next` goes on with. -/
def Next.begun : Next → Option (Begin × ℕ)
  | .wait call token => some (call, token)
  | _ => none

@[simp] theorem Pc.after_begun (tokens : List ℕ) (next : Next) :
    (Pc.after tokens next).begun = next.begun := by
  cases tokens with
  | nil => cases next <;> rfl
  | cons => cases next <;> rfl

section
variable {s t : Logins} {thread token : ℕ} {pc : Pc} {login : Login} {proc : Process}

/-- Taking a login touches nothing but what is in flight. -/
theorem take_rest (provider : String) (which : Option ℕ) :
    (s.take provider which).2.pc = s.pc ∧ (s.take provider which).2.child = s.child ∧
      (s.take provider which).2.nextLogin = s.nextLogin ∧
      (s.take provider which).2.loginEpoch = s.loginEpoch := by
  unfold take
  split
  · split_ifs <;> exact ⟨rfl, rfl, rfl, rfl⟩
  · exact ⟨rfl, rfl, rfl, rfl⟩

@[simp] theorem take_pc (provider : String) (which : Option ℕ) :
    (s.take provider which).2.pc = s.pc := (take_rest provider which).1

@[simp] theorem take_child (provider : String) (which : Option ℕ) :
    (s.take provider which).2.child = s.child := (take_rest provider which).2.1

@[simp] theorem take_nextLogin (provider : String) (which : Option ℕ) :
    (s.take provider which).2.nextLogin = s.nextLogin := (take_rest provider which).2.2.1

@[simp] theorem take_loginEpoch (provider : String) (which : Option ℕ) :
    (s.take provider which).2.loginEpoch = s.loginEpoch := (take_rest provider which).2.2.2

/-- What one act can do. -/
inductive Steps (s : Logins) : Logins → Prop where
  /-- Nobody is found to be finished. -/
  | idle : Steps s s
  /-- A child moves, and its exit is not heard. -/
  | own (token : ℕ) (login : Login) (proc : Process) (move : Process.Move)
      (child : s.child token = some login) (own : move.own = true) (unheard : move ≠ .hear .reaper)
      (moves : login.proc.step move = some proc) : Steps s (s.setChild token { login with proc })
  /-- A child's exit is heard, and takes it out of flight. -/
  | exited (token : ℕ) (login : Login) (proc : Process) (child : s.child token = some login)
      (moves : login.proc.step (.hear .reaper) = some proc) :
      Steps s ((s.setChild token { login with proc }).take login.provider (some token)).2
  /-- A thread goes on stopping a child. -/
  | stops (thread token : ℕ) (tokens : List ℕ) (next : Next) (login : Login) (proc : Process)
      (move : Process.Move) (stopping : s.pc thread = .stopping (token :: tokens) next)
      (child : s.child token = some login) (its : stops move = some thread)
      (moves : login.proc.step move = some proc) : Steps s (s.setChild token { login with proc })
  /-- A thread has stopped a child. -/
  | stopped (thread token : ℕ) (tokens : List ℕ) (next : Next) (login : Login) (proc : Process)
      (stopping : s.pc thread = .stopping (token :: tokens) next)
      (child : s.child token = some login) (moves : login.proc.step (.done thread) = some proc) :
      Steps s ((s.setChild token { login with proc }).retire thread tokens next)
  | begins (thread : ℕ) (call : Begin) (idle : s.pc thread = .idle) :
      Steps s (s.setPc thread (.reading call s.loginEpoch))
  | names (thread : ℕ) (call : Begin) (epoch : ℕ) (reading : s.pc thread = .reading call epoch) :
      Steps s { s.setPc thread (.naming call epoch s.nextLogin) with nextLogin := s.nextLogin + 1 }
  | spawns (thread : ℕ) (call : Begin) (epoch token : ℕ)
      (naming : s.pc thread = .naming call epoch token) :
      Steps s ((s.setChild token
        { proc := .start true true true, provider := call.provider, epoch }).setPc thread
          (.spawned call epoch token))
  | fails (thread : ℕ) (call : Begin) (epoch token : ℕ)
      (naming : s.pc thread = .naming call epoch token) :
      Steps s (s.retire thread [] (.answer ("omni could not run " ++ call.command)))
  | enters (thread : ℕ) (call : Begin) (epoch token : ℕ)
      (spawned : s.pc thread = .spawned call epoch token) (current : s.loginEpoch = epoch) :
      Steps s { s.setPc thread (.entered call token (s.inFlight.lookup call.provider)) with
        inFlight := Entries.insert s.inFlight call.provider token
        reaper := true }
  | rejects (thread : ℕ) (call : Begin) (epoch token : ℕ)
      (spawned : s.pc thread = .spawned call epoch token) :
      Steps s (s.retire thread [token] (.answer "omni stopped this login during shutdown"))
  | sees (thread : ℕ) (call : Begin) (token : ℕ) (old : Option ℕ)
      (entered : s.pc thread = .entered call token old) (alive : s.isAlive token = true) :
      Steps s (s.retire thread old.toList (.wait call token))
  | finds (thread : ℕ) (call : Begin) (token : ℕ) (old : Option ℕ)
      (entered : s.pc thread = .entered call token old) (dead : s.isAlive token = false) :
      Steps s (s.setPc thread (.dead call token old))
  | drops (thread : ℕ) (call : Begin) (token : ℕ) (old : Option ℕ)
      (dead : s.pc thread = .dead call token old) :
      Steps s ((s.take call.provider (some token)).2.retire thread old.toList (.wait call token))
  | receives (thread : ℕ) (call : Begin) (token : ℕ) (url : String)
      (waiting : s.pc thread = .waiting call token) : Steps s (s.retire thread [] (.answer url))
  | waits (thread : ℕ) (call : Begin) (token : ℕ) (waiting : s.pc thread = .waiting call token) :
      Steps s (s.setPc thread (.silent call token))
  | transcribes (thread : ℕ) (call : Begin) (token : ℕ) (text : String)
      (silent : s.pc thread = .silent call token) : Steps s (s.setPc thread (.giving call token text))
  | abandons (thread : ℕ) (call : Begin) (token : ℕ) (transcript answer : String)
      (giving : s.pc thread = .giving call token transcript) :
      Steps s ((s.take call.provider (some token)).2.setPc thread (.stopping [token] (.answer answer)))
  | takes (thread : ℕ) (provider code : String) (token : ℕ) (idle : s.pc thread = .idle)
      (found : s.inFlight.lookup provider = some token) :
      Steps s (({ s with inFlight := Entries.remove s.inFlight provider } : Logins).setPc thread
        (.handing token code))
  | hands (thread token : ℕ) (code : String) (login : Login) (proc : Process)
      (handing : s.pc thread = .handing token code) (child : s.child token = some login)
      (sent : proc = login.proc ∨ ∃ text taken, proc = (login.proc.sendLine text taken).2) :
      Steps s ((s.setChild token { login with proc }).retire thread [token] .finish)
  | sweeps (thread : ℕ) (gone : String × ℕ → Bool) (idle : s.pc thread = .idle) :
      Steps s (({ s with inFlight := s.inFlight.filter fun entry => !gone entry } : Logins).retire
        thread ((s.inFlight.filter gone).map (·.2)) .finish)
  | raises (thread : ℕ) (idle : s.pc thread = .idle) :
      Steps s { s.setPc thread .draining with loginEpoch := s.loginEpoch + 1 }
  | drains (thread : ℕ) (draining : s.pc thread = .draining) :
      Steps s (({ s with inFlight := [] } : Logins).retire thread (s.inFlight.map (·.2)) .finish)

theorem moveChild_steps {move : Process.Move} (own : move.own = true)
    (hstep : s.moveChild token move = some t) : Steps s t := by
  unfold moveChild at hstep
  split at hstep
  · rename_i login child
    split at hstep
    · rename_i proc moves
      by_cases heard : move = .hear .reaper
      · subst heard
        simp only [if_true, Option.some.injEq] at hstep
        subst hstep
        exact .exited token login proc child moves
      · simp only [heard, if_false, Option.some.injEq] at hstep
        subst hstep
        exact .own token login proc move child own heard moves
    · cases hstep
  · cases hstep

theorem moveStop_steps {move : Process.Move} (hstep : s.moveStop thread move = some t) :
    Steps s t := by
  unfold moveStop at hstep
  split at hstep
  · rename_i token tokens next stopping
    split at hstep
    · rename_i its
      split at hstep
      · rename_i login child
        split at hstep
        · rename_i proc moves
          by_cases done : move = .done thread
          · subst done
            simp only [if_true, Option.some.injEq] at hstep
            subst hstep
            exact .stopped thread token tokens next login proc stopping child moves
          · simp only [done, if_false, Option.some.injEq] at hstep
            subst hstep
            exact .stops thread token tokens next login proc move stopping child its moves
        · cases hstep
      · cases hstep
    · cases hstep
  · cases hstep

theorem take_none {provider : String} :
    (s.take provider none = (none, s)) ∨
      ∃ found, s.inFlight.lookup provider = some found ∧
        s.take provider none = (some found, { s with inFlight := Entries.remove s.inFlight provider }) := by
  unfold take
  cases found : s.inFlight.lookup provider with
  | none => exact .inl rfl
  | some token => exact .inr ⟨token, rfl, rfl⟩

theorem step_steps {act : Act} (hstep : s.step act = some t) : Steps s t := by
  cases act with
  | child token move =>
    simp only [step] at hstep
    split_ifs at hstep with own
    exact moveChild_steps own hstep
  | stop thread move => exact moveStop_steps hstep
  | begin_ thread call =>
    simp only [step] at hstep
    split at hstep <;> cases hstep
    rename_i idle
    exact .begins thread call idle
  | name thread =>
    simp only [step] at hstep
    split at hstep <;> cases hstep
    rename_i call epoch reading
    exact .names thread call epoch reading
  | spawn thread ok =>
    simp only [step] at hstep
    split at hstep
    · rename_i call epoch token naming
      cases ok with
      | true =>
        cases hstep
        exact .spawns thread call epoch token naming
      | false =>
        cases hstep
        exact .fails thread call epoch token naming
    · cases hstep
  | track thread =>
    simp only [step] at hstep
    split at hstep
    · rename_i call epoch token spawned
      rw [Option.some.injEq, track] at hstep
      split_ifs at hstep with current
      · subst hstep
        exact .enters thread call epoch token spawned current
      · subst hstep
        exact .rejects thread call epoch token spawned
    · cases hstep
  | check thread =>
    simp only [step] at hstep
    split at hstep
    · rename_i call token old entered
      cases alive : s.isAlive token with
      | true =>
        simp only [alive, if_true, Option.some.injEq] at hstep
        subst hstep
        exact .sees thread call token old entered alive
      | false =>
        simp only [alive, Bool.false_eq_true, if_false, Option.some.injEq] at hstep
        subst hstep
        exact .finds thread call token old entered alive
    · cases hstep
  | drop thread =>
    simp only [step] at hstep
    split at hstep <;> cases hstep
    rename_i call token old dead
    exact .drops thread call token old dead
  | receive thread =>
    simp only [step] at hstep
    split at hstep
    · rename_i call token waiting
      obtain ⟨url, -, rfl⟩ := Option.map_eq_some_iff.mp hstep
      exact .receives thread call token url waiting
    · cases hstep
  | timeout thread =>
    simp only [step] at hstep
    split at hstep
    · rename_i call token waiting
      split_ifs at hstep
      cases hstep
      exact .waits thread call token waiting
    · cases hstep
  | transcribe thread =>
    simp only [step] at hstep
    split at hstep <;> cases hstep
    rename_i call token silent
    exact .transcribes thread call token _ silent
  | abandon thread =>
    simp only [step] at hstep
    split at hstep <;> cases hstep
    rename_i call token transcript giving
    exact .abandons thread call token transcript _ giving
  | complete thread provider code =>
    simp only [step] at hstep
    split at hstep
    · rename_i idle
      rcases @take_none s provider with taken | ⟨found, lookup, taken⟩
      · rw [taken] at hstep
        cases hstep
        exact .idle
      · rw [taken] at hstep
        cases hstep
        exact .takes thread provider code found idle lookup
    · cases hstep
  | hand thread taken =>
    simp only [step] at hstep
    split at hstep
    · rename_i token code handing
      split at hstep
      · rename_i login child
        cases hstep
        refine .hands thread token code login _ handing child ?_
        split_ifs
        · exact .inl rfl
        · exact .inr ⟨trim code, taken, rfl⟩
      · cases hstep
    · cases hstep
  | sweep thread expired =>
    simp only [step] at hstep
    split at hstep
    · rename_i idle
      split_ifs at hstep
      cases hstep
      exact .sweeps thread (fun entry => expired.contains entry.1 || !s.isAlive entry.2) idle
    · cases hstep
  | shutdown thread =>
    simp only [step] at hstep
    split at hstep <;> cases hstep
    rename_i idle
    exact .raises thread idle
  | drain thread =>
    simp only [step] at hstep
    split at hstep <;> cases hstep
    rename_i draining
    exact .drains thread draining

/-- Every call has a token of its own, and its child is a login of its provider. -/
structure Named (s : Logins) : Prop where
  fresh : ∀ token, s.nextLogin ≤ token → s.child token = none
  drawn : ∀ t token, (s.pc t).drawn = some token → token < s.nextLogin
  apart : ∀ t u token, (s.pc t).drawn = some token → (s.pc u).drawn = some token → t = u
  unborn : ∀ t token, (s.pc t).unborn = some token → s.child token = none
  begun : ∀ t call token, (s.pc t).begun = some (call, token) →
    ∃ login, s.child token = some login ∧ login.provider = call.provider
  epoch : ∀ t call epoch token, s.pc t = .spawned call epoch token →
    ∃ login, s.child token = some login ∧ login.epoch = epoch
  deceased : ∀ t token, (s.pc t).deceased = some token →
    ∃ login, s.child token = some login ∧ login.proc.running = false

theorem Named.init : Named {} := by
  constructor <;> simp [Pc.drawn, Pc.unborn, Pc.begun, Pc.deceased]

/-- A thread goes on with the login it has. -/
theorem Named.turn (h : Named s) (named : t.nextLogin = s.nextLogin) (child : t.child = s.child)
    (turned : t.pc = Function.update s.pc thread pc)
    (begun : ∀ call token, pc.begun = some (call, token) → (s.pc thread).begun = some (call, token))
    (unborn : pc.unborn = none) (unentered : pc.unentered = none)
    (deceased : ∀ token, pc.deceased = some token →
      ∃ login, s.child token = some login ∧ login.proc.running = false) : Named t := by
  have still (u token : ℕ) (hu : (t.pc u).drawn = some token) : (s.pc u).drawn = some token := by
    rw [turned] at hu
    by_cases hthread : u = thread
    · subst hthread
      rw [Function.update_self, Pc.drawn, unborn, Option.none_or] at hu
      obtain ⟨⟨call, token'⟩, hbegun, rfl⟩ := Option.map_eq_some_iff.mp hu
      have was := begun call token' hbegun
      cases hpc : s.pc u <;> rw [hpc] at was <;> simp_all [Pc.drawn, Pc.begun, Pc.unborn]
    · rwa [Function.update_of_ne hthread] at hu
  constructor
  · rw [named, child]
    exact h.fresh
  · intro u token hu
    rw [named]
    exact h.drawn u token (still u token hu)
  · intro u v token hu hv
    exact h.apart u v token (still u token hu) (still v token hv)
  · intro u token hu
    rw [turned] at hu
    rw [child]
    by_cases hthread : u = thread
    · subst hthread
      rw [Function.update_self, unborn] at hu
      cases hu
    · rw [Function.update_of_ne hthread] at hu
      exact h.unborn u token hu
  · intro u call token hu
    rw [turned] at hu
    rw [child]
    by_cases hthread : u = thread
    · subst hthread
      rw [Function.update_self] at hu
      exact h.begun u call token (begun call token hu)
    · rw [Function.update_of_ne hthread] at hu
      exact h.begun u call token hu
  · intro u call epoch token hu
    rw [turned] at hu
    rw [child]
    by_cases hthread : u = thread
    · subst hthread
      rw [Function.update_self] at hu
      rw [hu] at unentered
      cases unentered
    · rw [Function.update_of_ne hthread] at hu
      exact h.epoch u call epoch token hu
  · intro u token hu
    rw [turned] at hu
    rw [child]
    by_cases hthread : u = thread
    · subst hthread
      rw [Function.update_self] at hu
      exact deceased token hu
    · rw [Function.update_of_ne hthread] at hu
      exact h.deceased u token hu

/-- A child moves, and does not come back to life. -/
theorem Named.child (h : Named s) (child : s.child token = some login)
    (ends : proc.running = true → login.proc.running = true) :
    Named (s.setChild token { login with proc }) := by
  have other {k : ℕ} (hk : k ≠ token) :
      (s.setChild token { login with proc }).child k = s.child k := Function.update_of_ne hk ..
  have self : (s.setChild token { login with proc }).child token = some { login with proc } :=
    Function.update_self ..
  constructor
  · intro k hk
    have hne : k ≠ token := by
      rintro rfl
      rw [h.fresh k hk] at child
      cases child
    rw [other hne]
    exact h.fresh k hk
  · exact h.drawn
  · exact h.apart
  · intro u k hu
    have hne : k ≠ token := by
      rintro rfl
      rw [h.unborn u k hu] at child
      cases child
    rw [other hne]
    exact h.unborn u k hu
  · intro u call k hu
    obtain ⟨found, hfound, hprovider⟩ := h.begun u call k hu
    by_cases hk : k = token
    · subst hk
      cases child.symm.trans hfound
      exact ⟨_, self, hprovider⟩
    · rw [other hk]
      exact ⟨found, hfound, hprovider⟩
  · intro u call epoch k hu
    obtain ⟨found, hfound, hepoch⟩ := h.epoch u call epoch k hu
    by_cases hk : k = token
    · subst hk
      cases child.symm.trans hfound
      exact ⟨_, self, hepoch⟩
    · rw [other hk]
      exact ⟨found, hfound, hepoch⟩
  · intro u k hu
    obtain ⟨found, hfound, hdead⟩ := h.deceased u k hu
    by_cases hk : k = token
    · subst hk
      cases child.symm.trans hfound
      refine ⟨_, self, ?_⟩
      cases running : proc.running with
      | false => rfl
      | true => exact absurd (ends running) (by simp [hdead])
    · rw [other hk]
      exact ⟨found, hfound, hdead⟩

/-- A login is taken out of flight. -/
theorem Named.take {provider : String} {which : Option ℕ} (h : Named s) :
    Named (s.take provider which).2 := by
  constructor <;> simp only [take_pc, take_child, take_nextLogin]
  · exact h.fresh
  · exact h.drawn
  · exact h.apart
  · exact h.unborn
  · exact h.begun
  · exact h.epoch
  · exact h.deceased

/-- A thread stops what it holds, and goes on with the login it has. -/
theorem Named.retire {tokens : List ℕ} {next : Next} (h : Named s)
    (begun : ∀ call token, next.begun = some (call, token) →
      (s.pc thread).begun = some (call, token)) : Named (s.retire thread tokens next) := by
  refine h.turn rfl rfl rfl ?_ (by simp) (by simp) (by simp)
  intro call token hbegun
  rw [Pc.after_begun] at hbegun
  exact begun call token hbegun

theorem Named.setPc (h : Named s)
    (begun : ∀ call token, pc.begun = some (call, token) → (s.pc thread).begun = some (call, token))
    (unborn : pc.unborn = none) (unentered : pc.unentered = none) (deceased : pc.deceased = none) :
    Named (s.setPc thread pc) := by
  refine h.turn rfl rfl rfl begun unborn unentered ?_
  intro token hdeceased
  rw [deceased] at hdeceased
  cases hdeceased

/-- The next token is drawn. -/
theorem Named.names {call : Begin} {epoch : ℕ} (h : Named s)
    (reading : s.pc thread = .reading call epoch) :
    Named { s.setPc thread (.naming call epoch s.nextLogin) with nextLogin := s.nextLogin + 1 } := by
  have cases_ {α : Type} (f : Pc → Option α) {u : ℕ} {x : α}
      (hu : f (Function.update s.pc thread (.naming call epoch s.nextLogin) u) = some x) :
      (u = thread ∧ f (.naming call epoch s.nextLogin) = some x) ∨ (u ≠ thread ∧ f (s.pc u) = some x) := by
    by_cases hthread : u = thread
    · subst hthread
      rw [Function.update_self] at hu
      exact .inl ⟨rfl, hu⟩
    · rw [Function.update_of_ne hthread] at hu
      exact .inr ⟨hthread, hu⟩
  constructor
  · intro token hle
    exact h.fresh token (Nat.le_of_succ_le hle)
  · intro u token hu
    rcases cases_ Pc.drawn hu with ⟨-, hu⟩ | ⟨-, hu⟩
    · cases hu
      exact Nat.lt_succ_self _
    · exact (h.drawn u token hu).trans (Nat.lt_succ_self _)
  · intro u v token hu hv
    rcases cases_ Pc.drawn hu with ⟨hself, hnew⟩ | ⟨-, hold⟩
    · cases hnew
      rcases cases_ Pc.drawn hv with ⟨hother, -⟩ | ⟨-, hold⟩
      · exact hself.trans hother.symm
      · exact absurd (h.drawn v _ hold) (lt_irrefl _)
    · rcases cases_ Pc.drawn hv with ⟨-, hnew⟩ | ⟨-, hold'⟩
      · cases hnew
        exact absurd (h.drawn u _ hold) (lt_irrefl _)
      · exact h.apart u v token hold hold'
  · intro u token hu
    rcases cases_ Pc.unborn hu with ⟨-, hu⟩ | ⟨-, hu⟩
    · cases hu
      exact h.fresh _ le_rfl
    · exact h.unborn u token hu
  · intro u call token hu
    rcases cases_ Pc.begun hu with ⟨-, hu⟩ | ⟨-, hu⟩
    · cases hu
    · exact h.begun u call token hu
  · intro u call epoch token hu
    by_cases hthread : u = thread
    · subst hthread
      simp [Logins.setPc] at hu
    · simp only [Logins.setPc, Function.update_of_ne hthread] at hu
      exact h.epoch u call epoch token hu
  · intro u token hu
    rcases cases_ Pc.deceased hu with ⟨-, hu⟩ | ⟨-, hu⟩
    · cases hu
    · exact h.deceased u token hu

/-- A child is started. -/
theorem Named.spawns {call : Begin} {epoch : ℕ} (h : Named s)
    (naming : s.pc thread = .naming call epoch token) :
    Named ((s.setChild token
      { proc := .start true true true, provider := call.provider, epoch }).setPc thread
        (.spawned call epoch token)) := by
  have mine : (s.pc thread).drawn = some token := by rw [naming]; rfl
  have unborn := h.unborn thread token (by rw [naming]; rfl)
  have drawn {u k : ℕ} (hu : (Function.update s.pc thread (.spawned call epoch token) u).drawn = some k) :
      (s.pc u).drawn = some k := by
    by_cases hthread : u = thread
    · subst hthread
      rw [Function.update_self] at hu
      cases hu
      exact mine
    · rwa [Function.update_of_ne hthread] at hu
  have keeps {k : ℕ} {login : Login} (hk : s.child k = some login) : k ≠ token := by
    rintro rfl
    rw [unborn] at hk
    cases hk
  have self : ((s.setChild token
      { proc := .start true true true, provider := call.provider, epoch }).setPc thread
        (.spawned call epoch token)).child token =
          some { proc := .start true true true, provider := call.provider, epoch } :=
    Function.update_self ..
  have other {k : ℕ} (hk : k ≠ token) : ((s.setChild token
      { proc := .start true true true, provider := call.provider, epoch }).setPc thread
        (.spawned call epoch token)).child k = s.child k := Function.update_of_ne hk ..
  constructor
  · intro k hle
    have hne : k ≠ token := by
      rintro rfl
      exact absurd (h.drawn thread k mine) (Nat.not_lt.mpr hle)
    rw [other hne]
    exact h.fresh k hle
  · intro u k hu
    exact h.drawn u k (drawn hu)
  · intro u v k hu hv
    exact h.apart u v k (drawn hu) (drawn hv)
  · intro u k hu
    by_cases hthread : u = thread
    · subst hthread
      simp [Logins.setPc, Pc.unborn] at hu
    · simp only [Logins.setPc, Function.update_of_ne hthread] at hu
      have theirs : (s.pc u).drawn = some k := by
        have : (s.pc u).unborn = some k := hu
        rw [Pc.drawn, this]
        rfl
      have hne : k ≠ token := by
        rintro rfl
        exact hthread (h.apart u thread k theirs mine)
      rw [other hne]
      exact h.unborn u k hu
  · intro u call' k hu
    by_cases hthread : u = thread
    · subst hthread
      simp only [Logins.setPc, Function.update_self, Pc.begun, Option.some.injEq,
        Prod.mk.injEq] at hu
      obtain ⟨rfl, rfl⟩ := hu
      exact ⟨_, self, rfl⟩
    · simp only [Logins.setPc, Function.update_of_ne hthread] at hu
      obtain ⟨found, hfound, hprovider⟩ := h.begun u call' k hu
      rw [other (keeps hfound)]
      exact ⟨found, hfound, hprovider⟩
  · intro u call' epoch' k hu
    by_cases hthread : u = thread
    · subst hthread
      simp only [Logins.setPc, Function.update_self, Pc.spawned.injEq] at hu
      obtain ⟨rfl, rfl, rfl⟩ := hu
      exact ⟨_, self, rfl⟩
    · simp only [Logins.setPc, Function.update_of_ne hthread] at hu
      obtain ⟨found, hfound, hepoch⟩ := h.epoch u call' epoch' k hu
      rw [other (keeps hfound)]
      exact ⟨found, hfound, hepoch⟩
  · intro u k hu
    by_cases hthread : u = thread
    · subst hthread
      simp [Logins.setPc, Pc.deceased] at hu
    · simp only [Logins.setPc, Function.update_of_ne hthread] at hu
      obtain ⟨found, hfound, hdead⟩ := h.deceased u k hu
      rw [other (keeps hfound)]
      exact ⟨found, hfound, hdead⟩

theorem sendLine_running (text : String) (taken : Bool) :
    (proc.sendLine text taken).2.running = proc.running := by
  unfold Process.sendLine
  split_ifs <;> rfl

theorem Named.step (h : Named s) (steps : Steps s t) : Named t := by
  cases steps with
  | idle => exact h
  | own token login proc move child own unheard moves => exact h.child child (Process.step_lasts moves).1
  | exited token login proc child moves => exact (h.child child (Process.step_lasts moves).1).take
  | stops thread token tokens next login proc move stopping child its moves =>
    exact h.child child (Process.step_lasts moves).1
  | stopped thread token tokens next login proc stopping child moves =>
    refine (h.child child (Process.step_lasts moves).1).retire fun call k hbegun => ?_
    show (s.pc thread).begun = some (call, k)
    rw [stopping]
    cases next <;> simp_all [Next.begun, Pc.begun]
  | begins thread call idle => exact h.setPc (by simp [Pc.begun]) rfl rfl rfl
  | names thread call epoch reading => exact h.names reading
  | spawns thread call epoch token naming => exact h.spawns naming
  | fails thread call epoch token naming => exact h.retire (by simp [Next.begun])
  | enters thread call epoch token spawned current =>
    refine h.turn rfl rfl rfl ?_ rfl rfl (by simp [Pc.deceased])
    intro call' k hbegun
    rw [spawned]
    exact hbegun
  | rejects thread call epoch token spawned => exact h.retire (by simp [Next.begun])
  | sees thread call token old entered alive =>
    refine h.retire fun call' k hbegun => ?_
    rw [entered]
    exact hbegun
  | finds thread call token old entered dead =>
    refine h.turn rfl rfl rfl ?_ rfl rfl ?_
    · intro call' k hbegun
      rw [entered]
      exact hbegun
    · intro k hdeceased
      obtain rfl : token = k := Option.some.inj hdeceased
      obtain ⟨login, hlogin, -⟩ := h.begun thread call token (by rw [entered]; rfl)
      exact ⟨login, hlogin, by simpa [isAlive, hlogin] using dead⟩
  | drops thread call token old dead =>
    refine h.take.retire fun call' k hbegun => ?_
    rw [take_pc, dead]
    exact hbegun
  | receives thread call token url waiting => exact h.retire (by simp [Next.begun])
  | waits thread call token waiting =>
    refine h.setPc (fun call' k hbegun => ?_) rfl rfl rfl
    rw [waiting]
    exact hbegun
  | transcribes thread call token text silent =>
    refine h.setPc (fun call' k hbegun => ?_) rfl rfl rfl
    rw [silent]
    exact hbegun
  | abandons thread call token transcript answer giving =>
    exact h.take.setPc (by simp [Pc.begun]) rfl rfl rfl
  | takes thread provider code token idle found =>
    exact h.turn rfl rfl rfl (by simp [Pc.begun]) rfl rfl (by simp [Pc.deceased])
  | hands thread token code login proc handing child sent =>
    refine (h.child child ?_).retire (by simp [Next.begun])
    rcases sent with rfl | ⟨text, taken, rfl⟩
    · exact id
    · rw [sendLine_running]
      exact id
  | sweeps thread gone idle => exact h.turn rfl rfl rfl (by simp [Next.begun]) (by simp) (by simp) (by simp)
  | raises thread idle => exact h.turn rfl rfl rfl (by simp [Pc.begun]) rfl rfl (by simp [Pc.deceased])
  | drains thread draining =>
    exact h.turn rfl rfl rfl (by simp [Next.begun]) (by simp) (by simp) (by simp)

end
end SiliconOmni.Logins
