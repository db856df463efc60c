import CertWatch.Schedule

/-!
# What jobs keep

Jobs act on a state that others change while they wait. If every job leaves the state in order whenever it
finds it so, the state is in order at every turn of a schedule, and a job ends as it promises to for any
states in order that it may meet. The rules for parts of jobs follow how these are put together; a part that
never waits has rules that say what it makes of the state.
-/

namespace CertWatch
set_option autoImplicit false

variable {σ ρ α β : Type} {inv : σ → Prop} {post : ρ → Prop}

/-- A job that always finds the state in order leaves it so and ends with a result of a kind. So do the jobs
that it starts, whatever they end with. -/
def Job.Keeps (inv : σ → Prop) : (ρ → Prop) → Job σ ρ → Prop
  | post, .finish r => post r
  | post, .look next => ∀ now self s, inv s → (next now self s).Keeps inv post
  | post, .become s next => inv s ∧ next.Keeps inv post
  | post, .park _ _ next => next.Keeps inv post
  | post, .fork child next => child.Keeps inv (fun _ => True) ∧ ∀ id, (next id).Keeps inv post
  | post, .await _ next => ∀ r, (next r).Keeps inv post
  | post, .isOver _ next => ∀ b, (next b).Keeps inv post
  | post, .abort _ next => next.Keeps inv post
  | post, .limit _ inner next => inner.Keeps inv (fun _ => True) ∧ ∀ r, (next r).Keeps inv post

namespace Schedule

variable {s : Schedule σ ρ} {id : Nat}

/-- The state of a schedule is in order, and its jobs keep it so. -/
structure Keeps (inv : σ → Prop) (s : Schedule σ ρ) : Prop where
  state : inv s.state
  waiting : ∀ e ∈ s.waiting, e.2.Keeps inv fun _ => True
  queue : ∀ e ∈ s.queue, e.2.Keeps inv fun _ => True

/-- Waking up jobs only moves them from one list to the other. -/
theorem Keeps.wake (h : s.Keeps inv) : s.wake.Keeps inv where
  state := h.state
  waiting e among := h.waiting e (List.mem_filter.1 among).1
  queue e among := by
    rcases List.mem_append.1 among with queued | woken
    · exact h.queue e queued
    · exact h.waiting e (List.mem_filter.1 woken).1

theorem Keeps.conclude (h : s.Keeps inv) (id : Nat) (result : Option ρ) : (s.conclude id result).Keeps inv :=
  Keeps.wake ⟨h.state, h.waiting, h.queue⟩

theorem Keeps.abort (h : s.Keeps inv) (id : Nat) : (s.abort id).Keeps inv := by
  unfold Schedule.abort
  split
  · exact h
  · have fewer : Keeps inv { s with
        waiting := s.waiting.filter fun e => e.1 ≠ id
        queue := s.queue.filter fun e => e.1 ≠ id } :=
      ⟨h.state, fun e among => h.waiting e (List.mem_filter.1 among).1,
        fun e among => h.queue e (List.mem_filter.1 among).1⟩
    exact fewer.conclude id none

/-- A job that goes on leaves the schedule in order, and what is left of it keeps its promise. -/
theorem Keeps.advance {job : Job σ ρ} (h : s.Keeps inv) (keeps : job.Keeps inv post) (id : Nat) :
    (advance id job s).1.Keeps inv ∧ (advance id job s).2.Keeps inv post := by
  induction job generalizing s post with
  | finish r => exact ⟨h, keeps⟩
  | look next ih => exact ih _ _ _ h (keeps _ _ _ h.state)
  | become state next ih => exact ih (Keeps.wake ⟨keeps.1, h.waiting, h.queue⟩) keeps.2
  | park due condition next ih =>
    rw [Schedule.advance]
    split
    · exact ih h keeps
    · exact ⟨h, keeps⟩
  | fork child next _ ih =>
    refine ih _ ⟨h.state, h.waiting, fun e among => ?_⟩ (keeps.2 _)
    rcases List.mem_append.1 among with queued | new
    · exact h.queue e queued
    · rw [List.mem_singleton.1 new]
      exact keeps.1
  | await other next ih =>
    rw [Schedule.advance]
    split
    · exact ih _ h (keeps _)
    · exact ⟨h, keeps⟩
  | isOver other next ih => exact ih _ h (keeps _)
  | abort other next ih => exact ih (h.abort other) keeps
  | limit due inner next inside ih =>
    obtain ⟨there, rest⟩ := inside h keeps.1
    rw [Schedule.advance]
    generalize Schedule.advance id inner s = r at there rest
    split
    · exact ih _ there (keeps.2 _)
    · split
      · exact ih _ there (keeps.2 _)
      · exact ⟨there, rest, keeps.2⟩

theorem Keeps.serve (h : s.Keeps inv) {job : Job σ ρ} (keeps : job.Keeps inv fun _ => True) :
    (s.serve id job).Keeps inv := by
  obtain ⟨there, rest⟩ := h.advance keeps id
  unfold Schedule.serve
  generalize Schedule.advance id job s = r at there rest
  split
  · exact there.conclude id _
  · refine Keeps.wake ⟨there.state, fun e among => ?_, there.queue⟩
    rcases List.mem_append.1 among with waits | new
    · exact there.waiting e waits
    · rw [List.mem_singleton.1 new]
      exact rest

theorem Keeps.settle (h : s.Keeps inv) (fuel : Nat) : (s.settle fuel).Keeps inv := by
  induction fuel generalizing s with
  | zero => exact h
  | succ fuel ih =>
    rw [Schedule.settle]
    split
    · exact h
    · rename_i id job rest queue
      have first : (id, job) ∈ s.queue := queue ▸ List.mem_cons_self
      have others : ∀ e ∈ rest, e ∈ s.queue := fun e among => queue ▸ List.mem_cons_of_mem _ among
      have there : Keeps inv { s with queue := rest } :=
        ⟨h.state, h.waiting, fun e among => h.queue e (others e among)⟩
      exact ih (there.serve (h.queue _ first))

/-- **A leading job ends as it promises**, in whatever schedule of jobs that keep the state in order. -/
theorem Keeps.lead (h : s.Keeps inv) {job : Job σ ρ} (keeps : job.Keeps inv post) (fuel : Nat) :
    (s.lead fuel job).1.Keeps inv ∧ ∀ r ∈ (s.lead fuel job).2, post r := by
  induction fuel generalizing s job with
  | zero => exact ⟨h, nofun⟩
  | succ fuel ih =>
    obtain ⟨there, rest⟩ := h.advance keeps 0
    rw [Schedule.lead]
    generalize Schedule.advance 0 job s = r at there rest
    split
    · refine ⟨there.settle _, fun r same => ?_⟩
      cases same
      exact rest
    · dsimp only
      split
      · exact ih (there.settle _) rest
      · split
        · rename_i later _
          have settled := there.settle 1000000
          have ringing : Keeps inv { Schedule.settle 1000000 _ with now := later } :=
            ⟨settled.state, settled.waiting, settled.queue⟩
          exact ih ringing.wake rest
        · exact ⟨there.settle _, nofun⟩

end Schedule

namespace Flow

variable {P : α → Prop} {Q : β → Prop}

/-- A part of a job that always finds the state in order leaves it so, and goes on with an answer of a kind. -/
def Keeps (inv : σ → Prop) (Q : α → Prop) (f : Flow σ ρ α) : Prop :=
  ∀ ⦃post : ρ → Prop⦄ ⦃k : α → Job σ ρ⦄, (∀ a, Q a → (k a).Keeps inv post) → (f k).Keeps inv post

theorem Keeps.job {f : Flow σ ρ ρ} (h : f.Keeps inv post) : f.job.Keeps inv post := h fun _ good => good

theorem Keeps.mono {P Q : α → Prop} {f : Flow σ ρ α} (h : f.Keeps inv P) (weaker : ∀ a, P a → Q a) :
    f.Keeps inv Q := fun _ _ next => h fun a good => next a (weaker a good)

theorem keeps_pure {a : α} (good : P a) : Keeps inv P (pure a : Flow σ ρ α) := fun _ _ next => next a good

theorem Keeps.bind {f : Flow σ ρ α} {g : α → Flow σ ρ β} (h : f.Keeps inv P) (next : ∀ a, P a → (g a).Keeps inv Q) :
    (f >>= g).Keeps inv Q := fun _ _ last => h fun a good => next a good last

theorem keeps_get {view : σ → α} (sees : ∀ s, inv s → P (view s)) : Keeps inv P (get view : Flow σ ρ α) :=
  fun _ _ next _ _ s good => next _ (sees s good)

theorem keeps_see (view : σ → α) : Keeps inv (fun _ => True) (get view : Flow σ ρ α) := keeps_get fun _ _ => trivial

theorem keeps_edit {change : σ → σ} (keeps : ∀ s, inv s → inv (change s)) :
    Keeps inv (fun _ => True) (edit change : Flow σ ρ Unit) :=
  fun _ _ next _ _ s good => ⟨keeps s good, next () trivial⟩

theorem keeps_update {change : σ → σ × α} (keeps : ∀ s, inv s → inv (change s).1 ∧ P (change s).2) :
    Keeps inv P (update change : Flow σ ρ α) :=
  fun _ _ next _ _ s good => ⟨(keeps s good).1, next _ (keeps s good).2⟩

theorem keeps_now : Keeps inv (fun _ => True) (now : Flow σ ρ Nat) := fun _ _ next _ _ _ _ => next _ trivial

theorem keeps_self : Keeps inv (fun _ => True) (self : Flow σ ρ Nat) := fun _ _ next _ _ _ _ => next _ trivial

theorem keeps_waitUntil (condition : σ → Bool) :
    Keeps inv (fun _ => True) (waitUntil condition : Flow σ ρ Unit) := fun _ _ next => next () trivial

theorem keeps_waitUntilDue (due : Option Nat) (condition : σ → Bool) :
    Keeps inv (fun _ => True) (waitUntilDue due condition : Flow σ ρ Unit) := fun _ _ next => next () trivial

theorem keeps_sleepUntil (due : Nat) : Keeps inv (fun _ => True) (sleepUntil due : Flow σ ρ Unit) :=
  fun _ _ next => next () trivial

theorem keeps_sleep (length : Nat) : Keeps inv (fun _ => True) (sleep length : Flow σ ρ Unit) :=
  keeps_now.bind fun _ _ => keeps_sleepUntil _

theorem keeps_fork {child : Flow σ ρ ρ} (keeps : child.Keeps inv fun _ => True) :
    Keeps inv (fun _ => True) (fork child) := fun _ _ next => ⟨keeps.job, fun id => next id trivial⟩

theorem keeps_abort (id : Nat) : Keeps inv (fun _ => True) (abort id : Flow σ ρ Unit) :=
  fun _ _ next => next () trivial

theorem keeps_forM {f : α → Flow σ ρ Unit} (keeps : ∀ a, (f a).Keeps inv fun _ => True) (as : List α) :
    (as.forM f).Keeps inv fun _ => True := by
  induction as with
  | nil => exact keeps_pure trivial
  | cons a as ih => exact (keeps a).bind fun _ _ => ih

/-- Going from state to state keeps order if every step does, whatever the fuel. -/
theorem keeps_iterate {step : β → Flow σ ρ (β ⊕ α)} {giveUp : α}
    (keeps : ∀ b, Q b → (step b).Keeps inv (Sum.elim Q P)) (good : P giveUp) (fuel : Nat) {b : β} (first : Q b) :
    (iterate step giveUp fuel b).Keeps inv P := by
  induction fuel generalizing b with
  | zero => exact keeps_pure good
  | succ fuel ih =>
    refine (keeps b first).bind fun r reached => ?_
    cases r with
    | inl b => exact ih reached
    | inr a => exact keeps_pure reached

/-- A part of a job that never waits: from a state of a kind it goes on in the same turn, with an answer and a
state that belong to it. -/
def AtOnce (f : Flow σ ρ α) (pre : σ → Prop) (Q : α → σ → Prop) : Prop :=
  ∀ (id : Nat) (s : Schedule σ ρ), pre s.state → ∃ a s', s'.now = s.now ∧ Q a s'.state ∧
    ∀ k, Schedule.advance id (f k) s = Schedule.advance id (k a) s'

variable {pre : σ → Prop} {R : α → σ → Prop} {S : β → σ → Prop}

theorem AtOnce.bind {f : Flow σ ρ α} {g : α → Flow σ ρ β} (first : f.AtOnce pre R)
    (next : ∀ a, (g a).AtOnce (R a) S) : (f >>= g).AtOnce pre S := by
  intro id s holds
  obtain ⟨a, s', time, there, goes⟩ := first id s holds
  obtain ⟨b, s'', time', there', goes'⟩ := next a id s' there
  exact ⟨b, s'', time'.trans time, there', fun k => (goes _).trans (goes' k)⟩

/-- What a state of a kind implies for all of them may be assumed. -/
theorem atOnce_of_fact {fact : Prop} {f : Flow σ ρ α} (h : fact → f.AtOnce pre R) :
    f.AtOnce (fun s => fact ∧ pre s) R := fun id s holds => h holds.1 id s holds.2

theorem AtOnce.mono {R R' : α → σ → Prop} {f : Flow σ ρ α} (h : f.AtOnce pre R) (weaker : ∀ a s, R a s → R' a s) :
    f.AtOnce pre R' := by
  intro id s holds
  obtain ⟨a, s', time, there, goes⟩ := h id s holds
  exact ⟨a, s', time, weaker a _ there, goes⟩

theorem atOnce_pure {a : α} (good : ∀ s, pre s → R a s) : AtOnce (pure a : Flow σ ρ α) pre R :=
  fun _ s holds => ⟨a, s, rfl, good _ holds, fun _ => rfl⟩

theorem atOnce_get {view : σ → α} (sees : ∀ s, pre s → R (view s) s) : AtOnce (get view : Flow σ ρ α) pre R :=
  fun _ s holds => ⟨view s.state, s, rfl, sees _ holds, fun _ => rfl⟩

theorem atOnce_self {R : Nat → σ → Prop} (any : ∀ id s, pre s → R id s) :
    AtOnce (self : Flow σ ρ Nat) pre R :=
  fun id s holds => ⟨id, s, rfl, any id _ holds, fun _ => rfl⟩

theorem atOnce_update {change : σ → σ × α} (makes : ∀ s, pre s → R (change s).2 (change s).1) :
    AtOnce (update change : Flow σ ρ α) pre R :=
  fun _ s holds => ⟨(change s.state).2, { s with state := (change s.state).1 }.wake, rfl, makes _ holds, fun _ => rfl⟩

theorem atOnce_edit {change : σ → σ} {after : σ → Prop} (makes : ∀ s, pre s → after (change s)) :
    AtOnce (edit change : Flow σ ρ Unit) pre fun _ => after :=
  fun _ s holds => ⟨(), { s with state := change s.state }.wake, rfl, makes _ holds, fun _ => rfl⟩

/-- A condition that holds is not waited for. -/
theorem atOnce_waitUntil {condition : σ → Bool} (met : ∀ s, pre s → condition s = true) :
    AtOnce (waitUntil condition : Flow σ ρ Unit) pre fun _ => pre :=
  fun id s holds => ⟨(), s, rfl, holds, fun k => by simp [waitUntil, Schedule.advance, met _ holds]⟩

theorem atOnce_forM {f : α → Flow σ ρ Unit} (keeps : ∀ a, (f a).AtOnce pre fun _ => pre) (as : List α) :
    (as.forM f).AtOnce pre fun _ => pre := by
  induction as with
  | nil => exact atOnce_pure fun _ holds => holds
  | cons a as ih => exact (keeps a).bind fun _ => ih

end Flow
end CertWatch
