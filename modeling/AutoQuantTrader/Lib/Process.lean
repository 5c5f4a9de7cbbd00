import Mathlib.Data.List.Perm.Basic
import Mathlib.Logic.Relation

/-!
# Concurrent processes over a shared state

A `Program` is code that touches a shared state only through atomic operations.  Any number of
processes run programs, their operations interleaved; one that crashed takes no more steps.

A `Discipline` says what the operations keep true of the state, under preconditions, and how the
state grows.  `Follows` is the proof obligation of a program: whatever others do in between, each of
its operations is allowed, its log stays good, and its result is as promised.  `run_follows` then
speaks about every process of every run.
-/

namespace Concurrent

/-- Code that calls atomic operations and ends with a result or an error. -/
inductive Program (ο : Type) (ρ : ο → Type) (ε α : Type) : Type where
  | done (result : Except ε α)
  | call (op : ο) (next : ρ op → Program ο ρ ε α)

variable {ο : Type} {ρ : ο → Type} {ε α β σ ι : Type}

namespace Program

protected def bind : Program ο ρ ε α → (α → Program ο ρ ε β) → Program ο ρ ε β
  | done (.ok a), f => f a
  | done (.error e), _ => done (.error e)
  | call op next, f => call op fun r => (next r).bind f

instance : Monad (Program ο ρ ε) where
  pure a := done (.ok a)
  bind := Program.bind

/-- A computation that touches nothing. -/
def lift (x : Except ε α) : Program ο ρ ε α := done x

/-- One operation. -/
def perform (op : ο) : Program ο ρ ε (ρ op) := call op fun r => done (.ok r)

end Program

/-- An operation and its answer. -/
structure Event (ο : Type) (ρ : ο → Type) where
  op : ο
  answer : ρ op

/-- Run a program without interruption against operations that answer by a function. -/
def Program.drive (respond : σ → (op : ο) → ρ op × σ) :
    Program ο ρ ε α → σ → σ × List (Event ο ρ) × Except ε α
  | done result, s => (s, [], result)
  | call op next, s =>
    let (r, s') := respond s op
    let (s'', log, result) := (next r).drive respond s'
    (s'', ⟨op, r⟩ :: log, result)

/-- What operations keep true of the shared state, when they are allowed, and how they change it. -/
structure Discipline (σ ο : Type) (ρ : ο → Type) (perform : σ → (op : ο) → ρ op → σ → Prop) where
  inv : σ → Prop
  allowed : σ → ο → Prop
  grows : σ → σ → Prop
  refl : ∀ s, grows s s
  trans : ∀ {s s' s''}, grows s s' → grows s' s'' → grows s s''
  keeps : ∀ {s op r s'}, inv s → allowed s op → perform s op r s' → inv s' ∧ grows s s'

section Follows

variable {perform : σ → (op : ο) → ρ op → σ → Prop} (D : Discipline σ ο ρ perform)
  (good : List (Event ο ρ) → Prop)

/-- From a log and a state, and whatever others do in between, the program only makes allowed
operations, keeps its log good and ends as the postcondition says. -/
def Follows (post : List (Event ο ρ) → Except ε α → σ → Prop) :
    Program ο ρ ε α → List (Event ο ρ) → σ → Prop
  | .done result, log, s => ∀ s', D.grows s s' → D.inv s' → post log result s'
  | .call op next, log, s => ∀ s', D.grows s s' → D.inv s' → D.allowed s' op ∧
      ∀ r s'', perform s' op r s'' → good (log ++ [⟨op, r⟩]) ∧
        Follows post (next r) (log ++ [⟨op, r⟩]) s''

variable {D good} {post : List (Event ο ρ) → Except ε α → σ → Prop} {program : Program ο ρ ε α}
  {log : List (Event ο ρ)} {s s' : σ}

/-- What others do keeps the obligation. -/
theorem Follows.stable (h : Follows D good post program log s) (hgrows : D.grows s s') :
    Follows D good post program log s' := by
  cases program <;> exact fun s'' hgrows' => h s'' (D.trans hgrows hgrows')

/-- The obligation may be shown once others have done something. -/
theorem follows_of_forall (h : ∀ s', D.grows s s' → D.inv s' → Follows D good post program log s') :
    Follows D good post program log s := by
  cases program <;> exact fun s' hgrows hinv => h s' hgrows hinv s' (D.refl s') hinv

theorem follows_lift {x : Except ε α} (h : ∀ s', D.grows s s' → D.inv s' → post log x s') :
    Follows D good post (.lift x) log s := h

theorem follows_pure {a : α} (h : ∀ s', D.grows s s' → D.inv s' → post log (.ok a) s') :
    Follows D good post (pure a) log s := h

/-- **The rule of sequence.** -/
theorem follows_bind {f : α → Program ο ρ ε β} {post : List (Event ο ρ) → Except ε β → σ → Prop}
    (h : Follows D good (fun log result s => match result with
      | .ok a => Follows D good post (f a) log s
      | .error e => post log (.error e) s) program log s) :
    Follows D good post (program >>= f) log s := by
  induction program generalizing log s with
  | done result =>
    cases result with
    | ok a => exact follows_of_forall h
    | error e => exact h
  | call op next ih =>
    intro s' hgrows hinv
    obtain ⟨hallowed, hnext⟩ := h s' hgrows hinv
    exact ⟨hallowed, fun r s'' hperform =>
      ⟨(hnext r s'' hperform).1, ih r (hnext r s'' hperform).2⟩⟩

/-- Code that touches nothing, followed by more. -/
theorem follows_lift_bind {x : Except ε α} {f : α → Program ο ρ ε β}
    {post : List (Event ο ρ) → Except ε β → σ → Prop}
    (hok : ∀ a, x = .ok a → Follows D good post (f a) log s)
    (herror : ∀ e s', x = .error e → D.grows s s' → D.inv s' → post log (.error e) s') :
    Follows D good post (.lift x >>= f) log s := by
  refine follows_bind fun s' hgrows hinv => ?_
  cases hx : x with
  | ok a => exact (hok a hx).stable hgrows
  | error e => exact herror e s' hx hgrows hinv

/-- One operation: it has to be allowed, and its answer leads on. -/
theorem follows_perform {op : ο} {post : List (Event ο ρ) → Except ε (ρ op) → σ → Prop}
    (h : ∀ s', D.grows s s' → D.inv s' → D.allowed s' op ∧ ∀ r s'', perform s' op r s'' →
      D.inv s'' → good (log ++ [⟨op, r⟩]) ∧
        ∀ s₃, D.grows s'' s₃ → D.inv s₃ → post (log ++ [⟨op, r⟩]) (.ok r) s₃) :
    Follows D good post (.perform op) log s := by
  intro s' hgrows hinv
  obtain ⟨hallowed, hnext⟩ := h s' hgrows hinv
  exact ⟨hallowed, fun r s'' hperform => hnext r s'' hperform (D.keeps hinv hallowed hperform).1⟩

/-- A weaker postcondition; a program only adds to its log. -/
theorem Follows.mono {post' : List (Event ο ρ) → Except ε α → σ → Prop}
    (h : Follows D good post program log s)
    (hpost : ∀ log' result s', log <+: log' → D.inv s' → post log' result s' →
      post' log' result s') : Follows D good post' program log s := by
  induction program generalizing log s with
  | done result =>
    intro s' hgrows hinv
    exact hpost log result s' List.prefix_rfl hinv (h s' hgrows hinv)
  | call op next ih =>
    intro s' hgrows hinv
    obtain ⟨hallowed, hnext⟩ := h s' hgrows hinv
    refine ⟨hallowed, fun r s'' hperform => ⟨(hnext r s'' hperform).1, ?_⟩⟩
    refine ih r (hnext r s'' hperform).2 fun log' result s₃ hle => hpost log' result s₃ ?_
    exact (List.prefix_append _ _).trans hle

end Follows

/-! ## Runs -/

/-- A process: what it was started for and in which state, what it did, and what it has to do. -/
structure Process (σ ο : Type) (ρ : ο → Type) (ε α ι : Type) where
  entry : ι
  started : σ
  log : List (Event ο ρ)
  code : Program ο ρ ε α

/-- One step: a process is started, or one of them performs its next operation. -/
inductive Step (perform : σ → (op : ο) → ρ op → σ → Prop) (code : ι → Program ο ρ ε α) :
    σ × List (Process σ ο ρ ε α ι) → σ × List (Process σ ο ρ ε α ι) → Prop where
  | start {s : σ} {pool : List (Process σ ο ρ ε α ι)} (i : ι) :
      Step perform code (s, pool) (s, pool ++ [⟨i, s, [], code i⟩])
  | perform {s s' : σ} {front back : List (Process σ ο ρ ε α ι)} {process : Process σ ο ρ ε α ι}
      {op : ο} {next : ρ op → Program ο ρ ε α} {r : ρ op} (hcode : process.code = .call op next)
      (hperform : perform s op r s') :
      Step perform code (s, front ++ process :: back)
        (s', front ++ { process with log := process.log ++ [⟨op, r⟩], code := next r } :: back)

/-- A run from a state in which no process was started yet. -/
def Run (perform : σ → (op : ο) → ρ op → σ → Prop) (code : ι → Program ο ρ ε α) (s : σ) :
    σ × List (Process σ ο ρ ε α ι) → Prop :=
  Relation.ReflTransGen (Step perform code) (s, [])

/-- Everything the processes did. -/
def events (pool : List (Process σ ο ρ ε α ι)) : List (Event ο ρ) := pool.flatMap (·.log)

section Run

variable {perform : σ → (op : ο) → ρ op → σ → Prop} {D : Discipline σ ο ρ perform}
  {code : ι → Program ο ρ ε α} {good : ι → σ → List (Event ο ρ) → Prop}
  {post : ι → σ → List (Event ο ρ) → Except ε α → σ → Prop} {s : σ}
  {system : σ × List (Process σ ο ρ ε α ι)}

/-- Every program, wherever it is started, follows the discipline. -/
def Meets (D : Discipline σ ο ρ perform) (good : ι → σ → List (Event ο ρ) → Prop)
    (post : ι → σ → List (Event ο ρ) → Except ε α → σ → Prop) (code : ι → Program ο ρ ε α) : Prop :=
  ∀ i s, D.inv s → good i s [] ∧ Follows D (good i s) (post i s) (code i) [] s

/-- A process that keeps to the discipline. -/
def Disciplined (D : Discipline σ ο ρ perform) (good : ι → σ → List (Event ο ρ) → Prop)
    (post : ι → σ → List (Event ο ρ) → Except ε α → σ → Prop) (s : σ)
    (process : Process σ ο ρ ε α ι) : Prop :=
  good process.entry process.started process.log ∧
    Follows D (good process.entry process.started) (post process.entry process.started)
      process.code process.log s

/-- **The rule of runs**: if every program follows the discipline, so does every process. -/
theorem run_follows (hinit : D.inv s) (hcode : Meets D good post code)
    (hrun : Run perform code s system) :
    D.inv system.1 ∧ ∀ process ∈ system.2, Disciplined D good post system.1 process := by
  induction hrun with
  | refl => exact ⟨hinit, by simp⟩
  | tail _ hstep ih =>
    obtain ⟨hinv, hpool⟩ := ih
    cases hstep with
    | start i =>
      refine ⟨hinv, fun process hprocess => ?_⟩
      rcases List.mem_append.1 hprocess with hold | hnew
      · exact hpool process hold
      · rw [List.mem_singleton.1 hnew]
        exact hcode i _ hinv
    | @perform s s' front back process op next r hprogram hperform =>
      obtain ⟨-, hfollows⟩ := hpool process (by simp)
      rw [hprogram] at hfollows
      obtain ⟨hallowed, hnext⟩ := hfollows s (D.refl s) hinv
      obtain ⟨hinv', hgrows⟩ := D.keeps hinv hallowed hperform
      refine ⟨hinv', fun other hother => ?_⟩
      rcases List.mem_append.1 hother with hfront | hback
      · have h := hpool other (List.mem_append_left _ hfront)
        exact ⟨h.1, h.2.stable hgrows⟩
      · rcases List.mem_cons.1 hback with rfl | hback
        · exact hnext r s' hperform
        · have h := hpool other (List.mem_append_right _ (List.mem_cons_of_mem _ hback))
          exact ⟨h.1, h.2.stable hgrows⟩

/-- What a process that has ended promised. -/
theorem Disciplined.result {process : Process σ ο ρ ε α ι} {result : Except ε α}
    (h : Disciplined D good post s process) (hinv : D.inv s) (hdone : process.code = .done result) :
    post process.entry process.started process.log result s := by
  have hfollows := h.2
  rw [hdone] at hfollows
  exact hfollows s (D.refl s) hinv

/-- **The rule of events**: what every allowed operation keeps true of all that was done so far, in
any order, holds along every run. -/
theorem run_events (hinit : D.inv s) (hcode : Meets D good post code)
    (P : List (Event ο ρ) → σ → Prop)
    (hperm : ∀ {done done' : List (Event ο ρ)} {s}, done.Perm done' → P done s → P done' s)
    (hnil : P [] s)
    (hstep : ∀ {done s op r s'}, D.inv s → D.allowed s op → perform s op r s' → P done s →
      P (done ++ [⟨op, r⟩]) s') (hrun : Run perform code s system) :
    P (events system.2) system.1 := by
  induction hrun with
  | refl => exact hnil
  | tail hbefore hnow ih =>
    obtain ⟨hinv, hpool⟩ := run_follows hinit hcode hbefore
    cases hnow with
    | start i => simpa [events] using ih
    | @perform s s' front back process op next r hprogram hperform =>
      obtain ⟨-, hfollows⟩ := hpool process (by simp)
      rw [hprogram] at hfollows
      obtain ⟨hallowed, -⟩ := hfollows s (D.refl s) hinv
      refine hperm ?_ (hstep hinv hallowed hperform ih)
      simp only [events, List.flatMap_append, List.flatMap_cons, List.append_assoc]
      exact (List.perm_append_comm.append_left _).append_left _

/-- **The rule of completion**: where operations always answer, a process can be run to its end. -/
theorem Run.exists_done (htotal : ∀ s op, ∃ r s', perform s op r s') {s' : σ}
    {front back : List (Process σ ο ρ ε α ι)} {process : Process σ ο ρ ε α ι}
    (hrun : Run perform code s (s', front ++ process :: back)) :
    ∃ s'' log result, Run perform code s
      (s'', front ++ { process with log := process.log ++ log, code := .done result } :: back) := by
  obtain ⟨entry, started, log, program⟩ := process
  induction program generalizing log s' with
  | done result => exact ⟨s', [], result, by simpa using hrun⟩
  | call op next ih =>
    obtain ⟨r, s₁, hperform⟩ := htotal s' op
    obtain ⟨s'', rest, result, hdone⟩ := ih r (log ++ [⟨op, r⟩]) (hrun.tail (.perform rfl hperform))
    exact ⟨s'', ⟨op, r⟩ :: rest, result, by simpa using hdone⟩

/-- A process that is started and driven to its end extends a run. -/
theorem Run.drive {respond : σ → (op : ο) → ρ op × σ}
    (hrespond : ∀ s op, perform s op (respond s op).1 (respond s op).2) {s' : σ}
    {pool : List (Process σ ο ρ ε α ι)} (hrun : Run perform code s (s', pool)) (i : ι) :
    Run perform code s (((code i).drive respond s').1, pool ++
      [⟨i, s', ((code i).drive respond s').2.1, .done ((code i).drive respond s').2.2⟩]) := by
  have hcode : ∀ (program : Program ο ρ ε α) (done : List (Event ο ρ)) (t : σ),
      Run perform code s (t, pool ++ [⟨i, s', done, program⟩]) →
      Run perform code s ((program.drive respond t).1, pool ++
        [⟨i, s', done ++ (program.drive respond t).2.1, .done (program.drive respond t).2.2⟩]) := by
    intro program
    induction program with
    | done result =>
      intro done t hrun
      simpa [Program.drive] using hrun
    | call op next ih =>
      intro done t hrun
      have hnext := ih (respond t op).1 (done ++ [⟨op, (respond t op).1⟩]) (respond t op).2
        (hrun.tail (.perform rfl (hrespond t op)))
      simpa [Program.drive] using hnext
  exact hcode (code i) [] s' (hrun.tail (.start i))

end Run

end Concurrent
