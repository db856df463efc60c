import Mathlib.Logic.Function.Iterate
import CertWatch.Lease.Acquisition

/-!
# When a lease is asked for

An acquisition against a service that answers at once asks on the multiples of its pause, starting with
zero, until it is granted, a call fails, or another pause would go beyond the deadline. So of its
attempts all but the last are denied, and how it ends can be told from the answers alone.
-/

namespace CertWatch
set_option autoImplicit false

/-- An acquisition under way: the time, how it stands, and the attempts made so far, with the instants
at which they were made. -/
structure Pursuit where
  now : Nat
  stand : Acquisition.Stand
  attempts : List (Nat × Call)

namespace Acquisition

variable {a : Acquisition} {answers : Nat → Except Failure Bool} {begun : Nat} {timeout : Option Nat}

/-- Goes on by an attempt, which is answered at once, or by a pause, which ends when its timer rings. The
answers are numbered from zero. -/
def proceed (a : Acquisition) (answers : Nat → Except Failure Bool) (p : Pursuit) : Pursuit :=
  match p.stand with
  | .asking since =>
    { p with
      stand := a.answered since p.now (answers p.attempts.length)
      attempts := p.attempts ++ [(p.now, a.attempt)] }
  | .pausing next =>
    let now := max p.now (Clock.ring next)
    { p with now, stand := .asking now }
  | .ended _ => p

/-- What an acquisition that begins at an instant has come to after some attempts and pauses. -/
def pursued (a : Acquisition) (answers : Nat → Except Failure Bool) (begun n : Nat) : Pursuit :=
  (a.proceed answers)^[n] ⟨begun, .asking begun, []⟩

/-- The pause between two attempts, as it is made. -/
def spacing (a : Acquisition) : Nat := min a.retry Clock.longestPause

/-- When an attempt is made; they are numbered from zero. -/
def instant (a : Acquisition) (begun i : Nat) : Nat := begun + i * a.spacing

/-- The first attempts, with their instants. -/
def made (a : Acquisition) (begun k : Nat) : List (Nat × Call) :=
  (List.range k).map fun i => (a.instant begun i, a.attempt)

/-- The number of the last attempt within a timeout, if all are denied. -/
def lastWithin (a : Acquisition) (timeout : Nat) : Nat := (timeout + a.spacing - a.retry) / a.spacing

/-- The attempts before one with a number are denied. -/
def Denied (answers : Nat → Except Failure Bool) (k : Nat) : Prop := ∀ i < k, answers i = .ok false

/-- An attempt with a number is within the timeout, if there is one. -/
def InTime (a : Acquisition) (timeout : Option Nat) (k : Nat) : Prop := ∀ t ∈ timeout, k ≤ a.lastWithin t

/-- How the attempt with a number ends an acquisition. -/
inductive Closes (a : Acquisition) (answers : Nat → Except Failure Bool) (begun : Nat)
    (timeout : Option Nat) (k : Nat) : Except Failure Guard → Prop where
  | granted (yes : answers k = .ok true) :
    Closes a answers begun timeout k (.ok (a.guard (a.instant begun k) (a.instant begun k)))
  | failed {f : Failure} (broken : answers k = .error f) :
    Closes a answers begun timeout k (.error (.lockAcquisition (a.resource ++ ": " ++ f.message)))
  | timedOut {t : Nat} (no : answers k = .ok false) (limit : timeout = some t) (last : k = a.lastWithin t) :
    Closes a answers begun timeout k
      (.error (.lockAcquisition (a.resource ++ ": timed out waiting for lease")))

/-- An acquisition that begins on a whole millisecond and pauses for whole milliseconds. -/
structure OnMilliseconds (a : Acquisition) (begun : Nat) (timeout : Option Nat) : Prop where
  retry_eq : ∃ r, 1 ≤ r ∧ a.retry = r * Clock.millisecond
  begun_eq : ∃ m, begun = m * Clock.millisecond
  deadline_eq : a.deadline = timeout.map fun t => begun + t

/-! ## Instants -/

theorem made_succ (a : Acquisition) (begun k : Nat) :
    a.made begun (k + 1) = a.made begun k ++ [(a.instant begun k, a.attempt)] := by
  rw [made, List.range_succ, List.map_append]
  rfl

theorem length_made (a : Acquisition) (begun k : Nat) : (a.made begun k).length = k := by
  rw [made, List.length_map, List.length_range]

theorem instant_succ (a : Acquisition) (begun k : Nat) :
    a.instant begun (k + 1) = a.instant begun k + a.spacing := by
  rw [instant, instant, Nat.succ_mul, Nat.add_assoc]

/-- Thirty years are whole milliseconds, so every pause is. -/
theorem OnMilliseconds.spacing (h : a.OnMilliseconds begun timeout) :
    ∃ p, 1 ≤ p ∧ a.spacing = p * Clock.millisecond := by
  obtain ⟨r, positive, retry⟩ := h.retry_eq
  have longest : Clock.longestPause = 946080000000 * Clock.millisecond := rfl
  refine ⟨min r 946080000000, by omega, ?_⟩
  rw [Acquisition.spacing, retry, longest, Nat.mul_min_mul_right]

theorem OnMilliseconds.spacing_pos (h : a.OnMilliseconds begun timeout) : 0 < a.spacing := by
  obtain ⟨p, positive, spacing⟩ := h.spacing
  rw [spacing]
  exact Nat.mul_pos positive (by decide)

/-- The timer for an attempt rings at its instant. -/
theorem OnMilliseconds.ring_instant (h : a.OnMilliseconds begun timeout) (k : Nat) :
    Clock.ring (a.instant begun k) = a.instant begun k := by
  obtain ⟨p, -, spacing⟩ := h.spacing
  obtain ⟨m, rfl⟩ := h.begun_eq
  have whole : a.instant (m * Clock.millisecond) k = (m + k * p) * Clock.millisecond := by
    rw [instant, spacing, Nat.add_mul, Nat.mul_assoc]
  rw [whole, Clock.ring_mul]

/-! ## The timeout -/

theorem lt_lastWithin_iff (positive : 0 < a.spacing) (t i : Nat) :
    i < a.lastWithin t ↔ i * a.spacing + a.retry ≤ t := by
  have shorter : a.spacing ≤ a.retry := Nat.min_le_left _ _
  rw [lastWithin, ← Nat.succ_le_iff, Nat.le_div_iff_mul_le positive, Nat.succ_mul]
  omega

/-- There is a pause after an attempt exactly if another one is within the timeout. -/
theorem OnMilliseconds.mayPause_iff (h : a.OnMilliseconds begun timeout) (i : Nat) :
    a.mayPause (a.instant begun i) = true ↔ a.InTime timeout (i + 1) := by
  cases limit : timeout with
  | none => simp [mayPause, InTime, h.deadline_eq, limit]
  | some t =>
    have until_deadline : a.instant begun i + a.retry ≤ begun + t ↔ i * a.spacing + a.retry ≤ t := by
      rw [instant]
      omega
    have another : a.InTime (some t) (i + 1) ↔ i < a.lastWithin t := by
      constructor
      · exact fun within => within t rfl
      · rintro before _ ⟨⟩
        exact before
    rw [another, lt_lastWithin_iff h.spacing_pos, ← until_deadline]
    simp [mayPause, h.deadline_eq, limit]

theorem InTime.mono {j k : Nat} (h : a.InTime timeout k) (before : j ≤ k) : a.InTime timeout j :=
  fun t limit => Nat.le_trans before (h t limit)

theorem Denied.succ {k : Nat} (h : Denied answers k) (no : answers k = .ok false) : Denied answers (k + 1) := by
  intro i before
  rcases Nat.lt_succ_iff_lt_or_eq.1 before with earlier | rfl
  · exact h i earlier
  · exact no

/-- A denied attempt is followed by a pause until the next one, if that is within the timeout. -/
theorem answered_of_denied {k : Nat} (no : answers k = .ok false)
    (more : a.mayPause (a.instant begun k) = true) :
    a.answered (a.instant begun k) (a.instant begun k) (answers k) = .pausing (a.instant begun (k + 1)) := by
  rw [no, answered, judge, if_pos more, Clock.afterPause, instant_succ]
  rfl

theorem answered_of_closes (h : a.OnMilliseconds begun timeout) {k : Nat} {outcome : Except Failure Guard}
    (closes : a.Closes answers begun timeout k outcome) :
    a.answered (a.instant begun k) (a.instant begun k) (answers k) = .ended outcome := by
  cases closes with
  | granted yes => rw [yes]; rfl
  | failed broken => rw [broken]; rfl
  | timedOut no limit last =>
    have late : ¬ a.mayPause (a.instant begun k) = true := by
      rw [h.mayPause_iff, InTime]
      intro within
      have := within _ limit
      omega
    rw [no, answered, judge, if_neg late]

/-- An attempt within the timeout ends the acquisition, or there is another one. -/
theorem closes_or_continues {k : Nat} (within : a.InTime timeout k) :
    (∃ outcome, a.Closes answers begun timeout k outcome) ∨
      (answers k = .ok false ∧ a.InTime timeout (k + 1)) := by
  cases answer : answers k with
  | error f => exact .inl ⟨_, .failed answer⟩
  | ok yes =>
    cases yes with
    | true => exact .inl ⟨_, .granted answer⟩
    | false =>
      by_cases more : a.InTime timeout (k + 1)
      · exact .inr ⟨rfl, more⟩
      · simp only [InTime, Option.mem_def, Classical.not_forall, Nat.not_le] at more
        obtain ⟨t, limit, last⟩ := more
        have := within t limit
        exact .inl ⟨_, .timedOut answer limit (by omega)⟩

/-- What the answers make of an acquisition. -/
theorem asking_or_pausing_or_ended (n : Nat) :
    (∃ k, n = 2 * k ∧ Denied answers k ∧ a.InTime timeout k) ∨
      (∃ k, n = 2 * k + 1 ∧ Denied answers (k + 1) ∧ a.InTime timeout (k + 1)) ∨
      ∃ k outcome, 2 * k < n ∧ Denied answers k ∧ a.InTime timeout k ∧
        a.Closes answers begun timeout k outcome := by
  induction n with
  | zero => exact .inl ⟨0, rfl, nofun, fun _ _ => Nat.zero_le _⟩
  | succ n ih =>
    rcases ih with ⟨k, rfl, denied, within⟩ | ⟨k, rfl, denied, within⟩ | ⟨k, outcome, later, rest⟩
    · rcases closes_or_continues within with ⟨outcome, closes⟩ | ⟨no, more⟩
      · exact .inr (.inr ⟨k, outcome, by omega, denied, within, closes⟩)
      · exact .inr (.inl ⟨k, rfl, denied.succ no, more⟩)
    · exact .inl ⟨k + 1, by omega, denied, within⟩
    · exact .inr (.inr ⟨k, outcome, by omega, rest⟩)

theorem pursued_succ (a : Acquisition) (answers : Nat → Except Failure Bool) (begun n : Nat) :
    a.pursued answers begun (n + 1) = a.proceed answers (a.pursued answers begun n) :=
  Function.iterate_succ_apply' _ _ _

/-- Every attempt that is due is made at its instant. -/
theorem pursued_asking (h : a.OnMilliseconds begun timeout) {k : Nat} (denied : Denied answers k)
    (within : a.InTime timeout k) :
    a.pursued answers begun (2 * k) = ⟨a.instant begun k, .asking (a.instant begun k), a.made begun k⟩ := by
  induction k with
  | zero => simp [pursued, instant, made]
  | succ k ih =>
    have no := denied k (Nat.lt_succ_self k)
    have more := (h.mayPause_iff k).2 within
    have earlier := ih (fun i before => denied i (by omega)) (within.mono (Nat.le_succ k))
    have later : max (a.instant begun k) (a.instant begun (k + 1)) = a.instant begun (k + 1) := by
      rw [instant_succ]
      omega
    rw [Nat.mul_succ, pursued_succ, pursued_succ, earlier]
    simp only [proceed, length_made, answered_of_denied no more, h.ring_instant, later, made_succ]

theorem pursued_pausing (h : a.OnMilliseconds begun timeout) {k : Nat} (denied : Denied answers (k + 1))
    (within : a.InTime timeout (k + 1)) :
    a.pursued answers begun (2 * k + 1) =
      ⟨a.instant begun k, .pausing (a.instant begun (k + 1)), a.made begun (k + 1)⟩ := by
  have earlier := pursued_asking h (fun i before => denied i (by omega)) (within.mono (Nat.le_succ k))
  have more := (h.mayPause_iff k).2 within
  rw [pursued_succ, earlier]
  simp only [proceed, length_made, answered_of_denied (denied k (Nat.lt_succ_self k)) more, made_succ]

/-- Nothing is done after the attempt that ends the acquisition. -/
theorem pursued_ended (h : a.OnMilliseconds begun timeout) {k n : Nat} {outcome : Except Failure Guard}
    (denied : Denied answers k) (within : a.InTime timeout k)
    (closes : a.Closes answers begun timeout k outcome) (later : 2 * k < n) :
    a.pursued answers begun n = ⟨a.instant begun k, .ended outcome, a.made begun (k + 1)⟩ := by
  obtain ⟨more, rfl⟩ := Nat.exists_eq_add_of_lt later
  induction more with
  | zero =>
    rw [Nat.add_zero, pursued_succ, pursued_asking h denied within]
    simp only [proceed, length_made, answered_of_closes h closes, made_succ]
  | succ more ih =>
    rw [← Nat.add_assoc, pursued_succ, ih (by omega)]
    rfl

/-- **Where an acquisition stands.** It makes an attempt that is due, or pauses after one, or an attempt
has ended it. -/
theorem pursued_cases (h : a.OnMilliseconds begun timeout) (n : Nat) :
    (∃ k, Denied answers k ∧ a.InTime timeout k ∧
      a.pursued answers begun n = ⟨a.instant begun k, .asking (a.instant begun k), a.made begun k⟩) ∨
    (∃ k, Denied answers (k + 1) ∧ a.InTime timeout (k + 1) ∧
      a.pursued answers begun n =
        ⟨a.instant begun k, .pausing (a.instant begun (k + 1)), a.made begun (k + 1)⟩) ∨
    ∃ k outcome, Denied answers k ∧ a.InTime timeout k ∧ a.Closes answers begun timeout k outcome ∧
      a.pursued answers begun n = ⟨a.instant begun k, .ended outcome, a.made begun (k + 1)⟩ := by
  rcases asking_or_pausing_or_ended n with ⟨k, rfl, denied, within⟩ | ⟨k, rfl, denied, within⟩ |
    ⟨k, outcome, later, denied, within, closes⟩
  · exact .inl ⟨k, denied, within, pursued_asking h denied within⟩
  · exact .inr (.inl ⟨k, denied, within, pursued_pausing h denied within⟩)
  · exact .inr (.inr ⟨k, outcome, denied, within, closes, pursued_ended h denied within closes later⟩)

theorem OnMilliseconds.ends (h : a.OnMilliseconds begun timeout) (n : Nat) (outcome : Except Failure Guard)
    (ended : (a.pursued answers begun n).stand = .ended outcome) :
    ∃ k, Denied answers k ∧ a.InTime timeout k ∧ a.Closes answers begun timeout k outcome ∧
      a.pursued answers begun n = ⟨a.instant begun k, .ended outcome, a.made begun (k + 1)⟩ := by
  rcases pursued_cases h n with ⟨k, -, -, here⟩ | ⟨k, -, -, here⟩ | ⟨k, _, denied, within, closes, here⟩
  · rw [here] at ended
    cases ended
  · rw [here] at ended
    cases ended
  · rw [here] at ended
    cases ended
    exact ⟨k, denied, within, closes, here⟩

theorem OnMilliseconds.asks (h : a.OnMilliseconds begun timeout) (k : Nat) :
    (∃ n, (a.pursued answers begun n).attempts = a.made begun (k + 1)) ↔
      Denied answers k ∧ a.InTime timeout k := by
  constructor
  · rintro ⟨n, attempts⟩
    have count := congrArg List.length attempts
    rw [length_made] at count
    rcases pursued_cases h n with ⟨j, denied, within, here⟩ | ⟨j, denied, within, here⟩ |
      ⟨j, _, denied, within, -, here⟩
    all_goals rw [here, length_made] at count
    · subst count
      exact ⟨fun i before => denied i (by omega), within.mono (Nat.le_succ k)⟩
    · obtain rfl : j = k := by omega
      exact ⟨fun i before => denied i (by omega), within.mono (Nat.le_succ j)⟩
    · obtain rfl : j = k := by omega
      exact ⟨denied, within⟩
  · rintro ⟨denied, within⟩
    refine ⟨2 * k + 1, ?_⟩
    rw [pursued_succ, pursued_asking h denied within, made_succ]
    rfl

end Acquisition
end CertWatch
