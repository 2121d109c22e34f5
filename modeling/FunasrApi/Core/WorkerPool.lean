import FunasrApi.Core.Transition
import Mathlib.Data.List.Perm.Basic
import Mathlib.Data.List.Perm.Lattice

/-!
# Calls that share a pool of resources

Each call brings jobs to an executor of its own with a bounded number of workers. A
worker takes the first job that is queued; a job that has a result of its own needs no
resource, any other one waits for the pool, holds the resource at its head while it
works, and puts it back whatever the work came to. The scheduler chooses every step.
-/

namespace FunasrApi.Core.WorkerPool

/-- A call: its jobs in the stages they pass. -/
structure Call (ι κ ρ : Type*) where
  /-- The jobs no worker has taken yet, in the order of their submission. -/
  queued : List ι
  /-- The jobs that a worker has taken and that hold nothing. -/
  started : List ι
  /-- The jobs at work, each with the resource it holds. -/
  holding : List (ι × κ)
  /-- The jobs that are done, each with what it came to. -/
  finished : List (ι × ρ)
deriving DecidableEq

/-- The pool and the calls that use it. -/
structure State (ι κ ρ : Type*) where
  /-- The resources nobody holds, the next one to be taken first. -/
  free : List κ
  /-- The calls, in the order of their arrival. -/
  calls : List (Call ι κ ρ)
deriving DecidableEq

/-- What a job comes to, and how many workers a call has. -/
structure Rules (ι κ ρ : Type*) where
  /-- The number of workers of each call. -/
  workers : ℕ
  /-- What the job comes to when it needs no resource. -/
  direct : ι → Option ρ
  /-- What the job comes to with a resource. -/
  work : κ → ι → ρ

/-- What a job comes to with this resource, if it needs one. -/
def Rules.result {ι κ ρ : Type*} (rules : Rules ι κ ρ) (resource : κ) (job : ι) : ρ :=
  (rules.direct job).getD (rules.work resource job)

/-- A step of one call. -/
inductive CallStep
  /-- A worker takes the first queued job. -/
  | start
  /-- A job that needs no resource is done. -/
  | skip (position : ℕ)
  /-- A job takes the resource at the head of the pool. -/
  | take (position : ℕ)
  /-- A job at work is done and puts its resource back. -/
  | finish (position : ℕ)
deriving DecidableEq, Repr

/-- What the scheduler and the environment can choose. -/
inductive Action (ι : Type*)
  /-- A new call brings its jobs. -/
  | submit (jobs : List ι)
  /-- One of the calls makes a step. -/
  | call (position : ℕ) (step : CallStep)
deriving DecidableEq

variable {ι κ ρ : Type*} {rules : Rules ι κ ρ} {resources : List κ}

namespace Call

/-- A call whose jobs are all queued. -/
def new (jobs : List ι) : Call ι κ ρ := ⟨jobs, [], [], []⟩

/-- All jobs of a call. -/
def jobs (call : Call ι κ ρ) : List ι :=
  call.queued ++ call.started ++ call.holding.map Prod.fst ++ call.finished.map Prod.fst

/-- The resources that a call holds. -/
def held (call : Call ι κ ρ) : List κ := call.holding.map Prod.snd

/-- The number of workers at work. -/
def active (call : Call ι κ ρ) : ℕ := call.started.length + call.holding.length

/-- The steps that are left at most. -/
def remaining (call : Call ι κ ρ) : ℕ :=
  3 * call.queued.length + 2 * call.started.length + call.holding.length

/-- Every job of the call is done. -/
def Done (call : Call ι κ ρ) : Prop :=
  call.queued = [] ∧ call.started = [] ∧ call.holding = []

instance (call : Call ι κ ρ) : Decidable call.Done :=
  inferInstanceAs (Decidable (_ ∧ _ ∧ _))

/-- One step of a call, with the pool before and after it. -/
def step (rules : Rules ι κ ρ) (free : List κ) (call : Call ι κ ρ) :
    CallStep → Option (List κ × Call ι κ ρ)
  | .start =>
    match call.queued with
    | [] => none
    | job :: rest =>
      if call.active < rules.workers then
        some (free, { call with queued := rest, started := call.started ++ [job] })
      else none
  | .skip position =>
    call.started[position]?.bind fun job => (rules.direct job).map fun result =>
      (free, { call with
        started := call.started.eraseIdx position
        finished := call.finished ++ [(job, result)] })
  | .take position =>
    call.started[position]?.bind fun job =>
      match rules.direct job, free with
      | none, resource :: rest =>
        some (rest, { call with
          started := call.started.eraseIdx position
          holding := call.holding ++ [(job, resource)] })
      | _, _ => none
  | .finish position =>
    call.holding[position]?.map fun (job, resource) =>
      (free ++ [resource], { call with
        holding := call.holding.eraseIdx position
        finished := call.finished ++ [(job, rules.work resource job)] })

end Call

/-- One step of the pool with its calls. -/
def step (rules : Rules ι κ ρ) (s : State ι κ ρ) : Action ι → Option (State ι κ ρ)
  | .submit jobs => some { s with calls := s.calls ++ [Call.new jobs] }
  | .call position callStep =>
    s.calls[position]?.bind fun call => (call.step rules s.free callStep).map fun (free, after) =>
      ⟨free, s.calls.set position after⟩

/-- The machine of the pool. -/
def machine (rules : Rules ι κ ρ) : Machine (State ι κ ρ) (Action ι) := ⟨step rules⟩

/-- A pool that nobody has used. -/
def initial (resources : List κ) : State ι κ ρ := ⟨resources, []⟩

/-- The states that a pool with so many workers a call can come to. -/
def Reachable (rules : Rules ι κ ρ) (resources : List κ) : State ι κ ρ → Prop :=
  (machine rules).Reach (fun _ _ => True) (initial resources)

namespace State

/-- All resources that are held. -/
def held (s : State ι κ ρ) : List κ := s.calls.flatMap Call.held

/-- The steps that are left at most while no call arrives. -/
def remaining (s : State ι κ ρ) : ℕ := s.calls.foldr (fun call n => call.remaining + n) 0

end State

/-- What a job may have come to with these resources. -/
def Outcome (rules : Rules ι κ ρ) (resources : List κ) (job : ι) (result : ρ) : Prop :=
  match rules.direct job with
  | some own => result = own
  | none => ∃ resource ∈ resources, result = rules.work resource job

/-- What holds of a call in every state. -/
structure Call.Sound (rules : Rules ι κ ρ) (resources : List κ) (call : Call ι κ ρ) : Prop where
  within : call.active ≤ rules.workers
  needed : ∀ p ∈ call.holding, rules.direct p.1 = none
  owned : ∀ p ∈ call.holding, p.2 ∈ resources
  outcome : ∀ p ∈ call.finished, Outcome rules resources p.1 p.2

/-- What holds in every state: no resource is lost or doubled, and every call is sound. -/
structure Inv (rules : Rules ι κ ρ) (resources : List κ) (s : State ι κ ρ) : Prop where
  conserved : (s.free ++ s.held).Perm resources
  sound : ∀ call ∈ s.calls, call.Sound rules resources


theorem perm_of_getElem? {α : Type*} {l : List α} {i : ℕ} {a : α} (h : l[i]? = some a) :
    (a :: l.eraseIdx i).Perm l := by
  obtain ⟨hi, rfl⟩ := List.getElem?_eq_some_iff.mp h
  exact List.getElem_cons_eraseIdx_perm hi

/-- Changing one of the parts changes the whole by that part alone. -/
theorem flatMap_set_perm {α β : Type*} {l : List α} {i : ℕ} {a : α} (f : α → List β)
    (h : l[i]? = some a) :
    (l.flatMap f).Perm (f a ++ (l.eraseIdx i).flatMap f) ∧
      ∀ b, ((l.set i b).flatMap f).Perm (f b ++ (l.eraseIdx i).flatMap f) := by
  obtain ⟨hi, -⟩ := List.getElem?_eq_some_iff.mp h
  constructor
  · simpa using ((perm_of_getElem? h).symm.flatMap_right f)
  · intro b
    simpa using ((List.set_perm_cons_eraseIdx hi b).flatMap_right f)

namespace Call

variable {free free' : List κ} {call after : Call ι κ ρ} {callStep : CallStep}

/-- All that a step of a call can do. -/
theorem step_cases (h : call.step rules free callStep = some (free', after)) :
    (∃ job rest, call.queued = job :: rest ∧ call.active < rules.workers ∧ free' = free ∧
      after = { call with queued := rest, started := call.started ++ [job] }) ∨
    (∃ job others result, (job :: others).Perm call.started ∧ rules.direct job = some result ∧
      free' = free ∧
      after = { call with started := others, finished := call.finished ++ [(job, result)] }) ∨
    (∃ job others resource, (job :: others).Perm call.started ∧ rules.direct job = none ∧
      free = resource :: free' ∧
      after = { call with started := others, holding := call.holding ++ [(job, resource)] }) ∨
    ∃ job others resource, ((job, resource) :: others).Perm call.holding ∧
      free' = free ++ [resource] ∧
      after = { call with
        holding := others, finished := call.finished ++ [(job, rules.work resource job)] } := by
  cases callStep with
  | start =>
    left
    dsimp only [step] at h
    split at h
    · cases h
    · next job rest hqueued =>
      split at h
      · next hactive =>
        cases h
        exact ⟨job, rest, hqueued, hactive, rfl, rfl⟩
      · cases h
  | skip position =>
    right; left
    obtain ⟨job, hjob, h⟩ := Option.bind_eq_some_iff.mp h
    obtain ⟨result, hdirect, h⟩ := Option.map_eq_some_iff.mp h
    cases h
    exact ⟨job, _, result, perm_of_getElem? hjob, hdirect, rfl, rfl⟩
  | take position =>
    right; right; left
    obtain ⟨job, hjob, h⟩ := Option.bind_eq_some_iff.mp h
    cases hdirect : rules.direct job with
    | some result =>
      rw [hdirect] at h
      cases h
    | none =>
      rw [hdirect] at h
      cases free with
      | nil => cases h
      | cons resource rest =>
        cases h
        exact ⟨job, _, resource, perm_of_getElem? hjob, hdirect, rfl, rfl⟩
  | finish position =>
    right; right; right
    obtain ⟨⟨job, resource⟩, hjob, h⟩ := Option.map_eq_some_iff.mp h
    cases h
    exact ⟨job, _, resource, perm_of_getElem? hjob, rfl, rfl⟩

/-- No step loses, repeats or invents a job. -/
theorem step_jobs (h : call.step rules free callStep = some (free', after)) :
    after.jobs.Perm call.jobs := by
  classical
  rw [List.perm_iff_count]
  intro a
  rcases step_cases h with ⟨job, rest, hqueued, -, -, rfl⟩ | ⟨job, others, _, hperm, -, -, rfl⟩ |
    ⟨job, others, _, hperm, -, -, rfl⟩ | ⟨job, others, _, hperm, -, rfl⟩
  · simp only [jobs, hqueued, List.count_append, List.count_cons, List.count_nil]
    omega
  · have hstarted := hperm.count_eq a
    simp only [jobs, List.map_append, List.map_cons, List.map_nil, List.count_append,
      List.count_cons, List.count_nil] at hstarted ⊢
    omega
  · have hstarted := hperm.count_eq a
    simp only [jobs, List.map_append, List.map_cons, List.map_nil, List.count_append,
      List.count_cons, List.count_nil] at hstarted ⊢
    omega
  · have hholding := (hperm.map Prod.fst).count_eq a
    simp only [jobs, List.map_append, List.map_cons, List.map_nil, List.count_append,
      List.count_cons, List.count_nil] at hholding ⊢
    omega

/-- No step loses, doubles or invents a resource. -/
theorem step_resources (h : call.step rules free callStep = some (free', after)) :
    (free' ++ after.held).Perm (free ++ call.held) := by
  rcases step_cases h with ⟨_, _, -, -, rfl, rfl⟩ | ⟨_, _, _, -, -, rfl, rfl⟩ |
    ⟨_, _, resource, -, -, rfl, rfl⟩ | ⟨_, others, resource, hperm, rfl, rfl⟩
  · exact List.Perm.refl _
  · exact List.Perm.refl _
  · rw [held, held, List.map_append, ← List.append_assoc]
    exact List.perm_append_singleton resource (free' ++ call.holding.map Prod.snd)
  · rw [List.append_assoc]
    exact (hperm.map Prod.snd).append_left free

/-- Every step brings the call nearer to its end. -/
theorem step_remaining (h : call.step rules free callStep = some (free', after)) :
    after.remaining < call.remaining := by
  rcases step_cases h with ⟨_, rest, hqueued, -, -, rfl⟩ | ⟨_, _, _, hperm, -, -, rfl⟩ |
    ⟨_, _, _, hperm, -, -, rfl⟩ | ⟨_, _, _, hperm, -, rfl⟩
  · simp only [remaining, hqueued, List.length_append, List.length_cons, List.length_nil]
    omega
  all_goals
    have hlength := hperm.length_eq
    simp only [remaining, List.length_append, List.length_cons, List.length_nil] at hlength ⊢
    omega

/-- A step keeps a call sound. -/
theorem Sound.step (hsound : call.Sound rules resources) (hfree : ∀ r ∈ free, r ∈ resources)
    (h : call.step rules free callStep = some (free', after)) : after.Sound rules resources := by
  obtain ⟨hwithin, hneeded, howned, houtcome⟩ := hsound
  rw [active] at hwithin
  rcases step_cases h with ⟨job, rest, -, hactive, -, rfl⟩ |
    ⟨job, others, result, hperm, hdirect, -, rfl⟩ |
    ⟨job, others, resource, hperm, hdirect, rfl, rfl⟩ |
    ⟨job, others, resource, hperm, -, rfl⟩
  · refine ⟨?_, hneeded, howned, houtcome⟩
    rw [active] at hactive ⊢
    dsimp only
    rw [List.length_append, List.length_singleton]
    omega
  · have hlength := hperm.length_eq
    rw [List.length_cons] at hlength
    refine ⟨?_, hneeded, howned, ?_⟩
    · rw [active]
      dsimp only
      omega
    · simp only [List.forall_mem_append, List.forall_mem_singleton]
      refine ⟨houtcome, ?_⟩
      simp [Outcome, hdirect]
  · have hlength := hperm.length_eq
    rw [List.length_cons] at hlength
    refine ⟨?_, ?_, ?_, houtcome⟩
    · rw [active, List.length_append, List.length_singleton]
      dsimp only
      omega
    · simp only [List.forall_mem_append, List.forall_mem_singleton]
      exact ⟨hneeded, hdirect⟩
    · simp only [List.forall_mem_append, List.forall_mem_singleton]
      exact ⟨howned, hfree resource (List.mem_cons_self ..)⟩
  · have hlength := hperm.length_eq
    rw [List.length_cons] at hlength
    have hmem : (job, resource) ∈ call.holding := hperm.subset (List.mem_cons_self ..)
    have hothers : ∀ p ∈ others, p ∈ call.holding := fun p hp =>
      hperm.subset (List.mem_cons_of_mem _ hp)
    refine ⟨?_, fun p hp => hneeded p (hothers p hp), fun p hp => howned p (hothers p hp), ?_⟩
    · rw [active]
      dsimp only
      omega
    · simp only [List.forall_mem_append, List.forall_mem_singleton]
      refine ⟨houtcome, ?_⟩
      rw [Outcome, hneeded _ hmem]
      exact ⟨resource, howned _ hmem, rfl⟩

/-- A call that has a resource can finish a job. -/
theorem exists_step_of_holding (h : call.holding ≠ []) :
    ∃ callStep next, call.step rules free callStep = some next := by
  cases hholding : call.holding with
  | nil => exact absurd hholding h
  | cons p rest => exact ⟨.finish 0, _, by rw [step, hholding]; rfl⟩

/-- A call that is not done can make a step when the pool is not empty. -/
theorem exists_step (hworkers : 0 < rules.workers) (hfree : free ≠ []) (h : ¬ call.Done) :
    ∃ callStep next, call.step rules free callStep = some next := by
  by_cases hholding : call.holding = []
  · cases hstarted : call.started with
    | cons job rest =>
      obtain ⟨resource, others, rfl⟩ := List.exists_cons_of_ne_nil hfree
      cases hdirect : rules.direct job with
      | some result => exact ⟨.skip 0, _, by simp [step, hstarted, hdirect]; rfl⟩
      | none => exact ⟨.take 0, _, by simp [step, hstarted, hdirect]; rfl⟩
    | nil =>
      cases hqueued : call.queued with
      | nil => exact absurd ⟨hqueued, hstarted, hholding⟩ h
      | cons job rest =>
        have hactive : call.active < rules.workers := by simpa [active, hstarted, hholding]
        exact ⟨.start, _, by simp only [step, hqueued, if_pos hactive]; rfl⟩
  · exact exists_step_of_holding hholding

end Call

section Runs

variable {s t : State ι κ ρ} {callStep : CallStep} {position : ℕ}

/-- All that a step of the pool can do. -/
theorem step_cases {action : Action ι} (h : step rules s action = some t) :
    (∃ jobs, action = .submit jobs ∧ t = { s with calls := s.calls ++ [Call.new jobs] }) ∨
    ∃ position callStep call free after, action = .call position callStep ∧
      s.calls[position]? = some call ∧ call.step rules s.free callStep = some (free, after) ∧
      t = ⟨free, s.calls.set position after⟩ := by
  cases action with
  | submit jobs =>
    cases h
    exact .inl ⟨jobs, rfl, rfl⟩
  | call position callStep =>
    obtain ⟨call, hcall, h⟩ := Option.bind_eq_some_iff.mp h
    obtain ⟨⟨free, after⟩, hstep, h⟩ := Option.map_eq_some_iff.mp h
    cases h
    exact .inr ⟨position, callStep, call, free, after, rfl, hcall, hstep, rfl⟩

theorem Inv.initial (rules : Rules ι κ ρ) (resources : List κ) :
    Inv rules resources (initial resources) :=
  ⟨by simp [WorkerPool.initial, State.held], by simp [WorkerPool.initial]⟩

/-- No step breaks the invariant. -/
theorem Inv.step (hinv : Inv rules resources s) {action : Action ι}
    (h : step rules s action = some t) : Inv rules resources t := by
  obtain ⟨hconserved, hsound⟩ := hinv
  rcases step_cases h with ⟨jobs, -, rfl⟩ |
    ⟨position, callStep, call, free, after, -, hcall, hstep, rfl⟩
  · refine ⟨by simpa [State.held, Call.held, Call.new] using hconserved, ?_⟩
    simp only [List.forall_mem_append, List.forall_mem_singleton]
    exact ⟨hsound, by simp [Call.new, Call.active], by simp [Call.new], by simp [Call.new],
      by simp [Call.new]⟩
  · obtain ⟨hbefore, hafter⟩ := flatMap_set_perm Call.held hcall
    constructor
    · refine List.Perm.trans ?_ hconserved
      calc free ++ (s.calls.set position after).flatMap Call.held
          |>.Perm (free ++ (after.held ++ (s.calls.eraseIdx position).flatMap Call.held)) :=
            (hafter after).append_left free
        _ |>.Perm (s.free ++ (call.held ++ (s.calls.eraseIdx position).flatMap Call.held)) := by
            rw [← List.append_assoc, ← List.append_assoc]
            exact (Call.step_resources hstep).append_right _
        _ |>.Perm (s.free ++ s.calls.flatMap Call.held) := hbefore.symm.append_left s.free
    · have hfree : ∀ r ∈ s.free, r ∈ resources := fun r hr =>
        hconserved.subset (List.mem_append_left _ hr)
      intro other hother
      rcases List.mem_or_eq_of_mem_set hother with hold | rfl
      · exact hsound other hold
      · exact (hsound call (List.mem_of_getElem? hcall)).step hfree hstep

/-- The invariant holds in every reachable state. -/
theorem Inv.of_reachable (h : Reachable rules resources s) : Inv rules resources s :=
  h.invariant (Inv.initial rules resources) fun _ _ _ hinv _ hstep => hinv.step hstep

/-- When the resources are distinct, no two jobs hold the same one, and none that is held is
free. -/
theorem nodup_of_reachable (hresources : resources.Nodup) (h : Reachable rules resources s) :
    (s.free ++ s.held).Nodup :=
  (Inv.of_reachable h).conserved.nodup_iff.mpr hresources

/-- A call keeps its place and its jobs. -/
theorem Reach.jobs {ok : State ι κ ρ → Action ι → Prop} (h : (machine rules).Reach ok s t)
    {call : Call ι κ ρ} (hcall : s.calls[position]? = some call) :
    ∃ after, t.calls[position]? = some after ∧ after.jobs.Perm call.jobs := by
  refine h.invariant (I := fun t => ∃ after, t.calls[position]? = some after ∧
    after.jobs.Perm call.jobs) ⟨call, hcall, List.Perm.refl _⟩ fun u action t hu _ hstep => ?_
  obtain ⟨middle, hmiddle, hperm⟩ := hu
  have hlt := (List.getElem?_eq_some_iff.mp hmiddle).1
  rcases step_cases hstep with ⟨jobs, -, rfl⟩ | ⟨other, callStep, before, free, after, -, hbefore,
    hcallStep, rfl⟩
  · exact ⟨middle, by rwa [List.getElem?_append_left hlt], hperm⟩
  · by_cases hother : other = position
    · subst hother
      obtain rfl : before = middle := Option.some.inj (hbefore.symm.trans hmiddle)
      exact ⟨after, List.getElem?_set_self hlt, (Call.step_jobs hcallStep).trans hperm⟩
    · exact ⟨middle, by rwa [List.getElem?_set_ne hother], hperm⟩

/-- The steps of the calls are bounded while no call arrives. -/
theorem remaining_lt
    (h : step rules s (.call position callStep) = some t) : t.remaining < s.remaining := by
  rcases step_cases h with ⟨_, hsubmit, -⟩ |
    ⟨position, callStep, call, free, after, -, hcall, hstep, rfl⟩
  · cases hsubmit
  · obtain ⟨hlt, rfl⟩ := List.getElem?_eq_some_iff.mp hcall
    have : LeftCommutative fun (call : Call ι κ ρ) (n : ℕ) => call.remaining + n :=
      ⟨fun _ _ _ => Nat.add_left_comm ..⟩
    have hbefore := (perm_of_getElem? hcall).foldr_eq (f := fun call n => call.remaining + n) 0
    have hafter := (List.set_perm_cons_eraseIdx hlt after).foldr_eq
      (f := fun call n => call.remaining + n) 0
    have hless := Call.step_remaining hstep
    simp only [State.remaining, List.foldr_cons] at hbefore hafter ⊢
    omega

/-- Only so many steps are left as long as no call arrives. -/
theorem length_le_remaining {steps : List (ℕ × CallStep)}
    (h : (machine rules).run s (steps.map fun p => .call p.1 p.2) = some t) :
    steps.length + t.remaining ≤ s.remaining := by
  induction steps generalizing s with
  | nil =>
    obtain rfl : s = t := Option.some.inj h
    simp
  | cons p steps ih =>
    obtain ⟨u, hu, hrun⟩ := Option.bind_eq_some_iff.mp h
    have hless := remaining_lt hu
    have hrest := ih hrun
    rw [List.length_cons]
    omega

/-- While a call is not done, some call can make a step. -/
theorem exists_step (hworkers : 0 < rules.workers) (hresources : resources ≠ [])
    (hinv : Inv rules resources s) (h : ∃ call ∈ s.calls, ¬ call.Done) :
    ∃ position callStep t, step rules s (.call position callStep) = some t := by
  have hlift : ∀ call ∈ s.calls, (∃ callStep next, call.step rules s.free callStep = some next) →
      ∃ position callStep t, step rules s (.call position callStep) = some t := by
    rintro call hcall ⟨callStep, next, hstep⟩
    obtain ⟨position, hposition⟩ := List.getElem?_of_mem hcall
    exact ⟨position, callStep, _, by simp only [step, hposition, Option.bind_some, hstep]; rfl⟩
  by_cases hheld : s.held = []
  · have hfree : s.free ≠ [] := by
      rintro hfree
      have hlength := hinv.conserved.length_eq
      rw [hfree, hheld] at hlength
      exact hresources (List.length_eq_zero_iff.mp hlength.symm)
    obtain ⟨call, hcall, hdone⟩ := h
    exact hlift call hcall (Call.exists_step hworkers hfree hdone)
  · obtain ⟨resource, hresource⟩ := List.exists_mem_of_ne_nil _ hheld
    obtain ⟨call, hcall, hmem⟩ := List.mem_flatMap.mp hresource
    refine hlift call hcall (Call.exists_step_of_holding fun hnil => ?_)
    rw [Call.held, hnil] at hmem
    cases hmem

/-- When all calls are done, the pool is full again. -/
theorem free_perm_of_done (hinv : Inv rules resources s) (h : ∀ call ∈ s.calls, call.Done) :
    s.free.Perm resources := by
  have hheld : s.held = [] := List.flatMap_eq_nil_iff.mpr fun call hcall => by
    rw [Call.held, (h call hcall).2.2, List.map_nil]
  simpa [hheld] using hinv.conserved

/-- When the call is done, its results are those of its jobs, each with some resource. -/
theorem Call.Sound.exists_assignment {τ : Type*} {key : ι → τ} {call : Call ι κ ρ}
    (hsound : call.Sound rules resources) (hresources : resources ≠ []) (hdone : call.Done)
    (hkeys : (call.jobs.map key).Nodup) :
    ∃ resource : τ → κ, (∀ k, resource k ∈ resources) ∧
      call.finished.map Prod.snd =
        (call.finished.map Prod.fst).map fun job => rules.result (resource (key job)) job := by
  classical
  obtain ⟨hqueued, hstarted, hholding⟩ := hdone
  rw [jobs, hqueued, hstarted, hholding, List.map_nil, List.nil_append, List.nil_append,
    List.nil_append] at hkeys
  obtain ⟨first, hfirst⟩ := List.exists_mem_of_ne_nil resources hresources
  have : Nonempty κ := ⟨first⟩
  have hsome : ∀ p ∈ call.finished, ∃ resource ∈ resources, p.2 = rules.result resource p.1 := by
    intro p hp
    have houtcome := hsound.outcome p hp
    unfold Outcome at houtcome
    unfold Rules.result
    cases hdirect : rules.direct p.1 with
    | some own =>
      rw [hdirect] at houtcome
      exact ⟨first, hfirst, houtcome⟩
    | none =>
      rw [hdirect] at houtcome
      exact houtcome
  choose! holder hholder hresult using hsome
  -- the keys are distinct, so the resource of a job is a function of its key
  let resource (k : τ) : κ :=
    match call.finished.find? fun p => decide (key p.1 = k) with
    | some p => holder p
    | none => first
  have hresource : ∀ p ∈ call.finished, resource (key p.1) = holder p := by
    intro p hp
    cases hfind : call.finished.find? fun q => decide (key q.1 = key p.1) with
    | none => exact absurd (List.find?_eq_none.mp hfind p hp) (by simp)
    | some q =>
      have hkey : key q.1 = key p.1 := by simpa using List.find?_some hfind
      rw [List.map_map] at hkeys
      obtain rfl := List.inj_on_of_nodup_map hkeys (List.mem_of_find?_eq_some hfind) hp hkey
      simp only [resource, hfind]
  refine ⟨resource, fun k => ?_, ?_⟩
  · dsimp only [resource]
    split
    · next p hfind => exact hholder p (List.mem_of_find?_eq_some hfind)
    · exact hfirst
  · rw [List.map_map]
    refine List.map_congr_left fun p hp => ?_
    rw [Function.comp_apply, hresource p hp]
    exact hresult p hp

end Runs

section Collecting

variable {ε β : Type*} {results : List (Except ε β)} {values : List β}

/-- What the caller reads off the results as they complete: all values, or the first
exception. -/
def collect (completed : List (Except ε β)) : Except ε (List β) := completed.mapM id

theorem collect_cons (result : Except ε β) (results : List (Except ε β)) :
    collect (result :: results) =
      result.bind fun value => (collect results).map fun values => value :: values := by
  unfold collect
  rw [List.mapM_cons]
  cases result with
  | error e => rfl
  | ok value => cases results.mapM id <;> rfl

theorem collect_eq_ok_iff : collect results = .ok values ↔ results = values.map .ok := by
  induction results generalizing values with
  | nil =>
    rw [collect, List.mapM_nil]
    cases values with
    | nil => exact iff_of_true rfl rfl
    | cons value values => simp [pure, Except.pure]
  | cons result results ih =>
    rw [collect_cons]
    cases result with
    | error e => cases values <;> simp [Except.bind]
    | ok value =>
      rw [Except.bind]
      cases hrest : collect results with
      | error e =>
        rw [Except.map]
        refine iff_of_false (fun h => nomatch h) fun h => ?_
        cases values with
        | nil => cases h
        | cons other others =>
          rw [ih.mpr (List.cons.inj h).2] at hrest
          cases hrest
      | ok rest =>
        rw [Except.map, Except.ok.injEq, ih.mp hrest, ← List.map_cons]
        exact (List.map_injective_iff.mpr fun _ _ h => Except.ok.inj h).eq_iff.symm

/-- The exception is that of one of the results. -/
theorem mem_of_collect_eq_error {e : ε} (h : collect results = .error e) :
    .error e ∈ results := by
  induction results with
  | nil => cases h
  | cons result results ih =>
    rw [collect_cons] at h
    cases result with
    | error e' =>
      cases h
      exact List.mem_cons_self ..
    | ok value =>
      cases hrest : collect results with
      | error e' =>
        rw [Except.bind, hrest] at h
        cases h
        exact List.mem_cons_of_mem _ (ih hrest)
      | ok rest =>
        rw [Except.bind, hrest] at h
        cases h

/-- The order in which the results come does not decide whether there are values. -/
theorem collect_of_perm {results' : List (Except ε β)} (h : results.Perm results')
    (hvalues : collect results = .ok values) :
    ∃ values', collect results' = .ok values' ∧ values'.Perm values := by
  rw [collect_eq_ok_iff.mp hvalues] at h
  obtain ⟨values', rfl, hperm⟩ := (congrFun₂ (List.eq_map_comp_perm Except.ok) _ _).mpr h.symm
  exact ⟨values', collect_eq_ok_iff.mpr rfl, hperm⟩

end Collecting

end FunasrApi.Core.WorkerPool
