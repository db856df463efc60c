import CertWatch.DecryptLog
import CertWatch.Proofs.Digest
import CertWatch.Proofs.Text.Utf8

/-!
# Which failures are logged

The log prunes what it remembers whenever a failure is reported, and then it remembers exactly the
reports that it has answered with a line within its window (`Remembers`). So a report is logged unless
one of the same failure was logged within the window before it, whatever else is reported, and a
report that is not logged does not extend the window.
-/

namespace CertWatch
set_option autoImplicit false

/-- A failure that is reported at a time. -/
structure Report where
  time : Nat
  key : String
  failure : DecryptFailure
  deriving DecidableEq

namespace Report

/-- What two reports of one failure agree on: the key and the bytes. -/
def subject (r : Report) : String × Bytes := (r.key, r.failure.cipher)

/-- The fields whose digest stands for the failure. -/
def fields (r : Report) : List Bytes := [Utf8.encode r.key, r.failure.cipher]

theorem fields_of_subject {a b : Report} (same : a.subject = b.subject) : a.fields = b.fields := by
  obtain ⟨key, cipher⟩ := Prod.mk.inj same
  rw [fields, fields, key, cipher]

theorem subject_of_fields {a b : Report} (same : a.fields = b.fields) : a.subject = b.subject := by
  obtain ⟨keys, ciphers⟩ : Utf8.encode a.key = Utf8.encode b.key ∧
      a.failure.cipher = b.failure.cipher := by simpa [fields] using same
  rw [subject, subject, Utf8.encode_inj keys, ciphers]

end Report

namespace DecryptLog

/-- Takes note of reports, one after the other; the answers say which were logged. -/
def hear (log : DecryptLog) : List Report → DecryptLog × List (Report × Bool)
  | [] => (log, [])
  | r :: rest =>
    let (log, logged) := log.record r.time r.key r.failure.cipher
    let (log, heard) := log.hear rest
    (log, (r, logged) :: heard)

/-- Reports that come in order, among which the digests of different failures differ. -/
structure Telling (reports : List Report) : Prop where
  inOrder : (reports.map Report.time).Pairwise (· ≤ ·)
  apart : ∀ a ∈ reports, ∀ b ∈ reports,
    Digest.ofFields a.fields = Digest.ofFields b.fields → a.subject = b.subject

theorem telling_of_distinguishes {reports : List Report}
    (inOrder : (reports.map Report.time).Pairwise (· ≤ ·))
    (tells : Digest.Distinguishes (reports.map Report.fields)) : Telling reports := by
  refine ⟨inOrder, fun a among b among' same => Report.subject_of_fields ?_⟩
  exact tells.eq_of_ofFields (List.mem_map_of_mem among) (List.mem_map_of_mem among') same

/-- What a log with a window remembers of past reports and its answers: the reports within the window
that were logged, and how many were logged at all. -/
structure Remembers (window : Nat) (past : List (Report × Bool)) (log : DecryptLog) : Prop where
  interval : log.interval = window
  current : ∀ now, (∀ c ∈ past, c.1.time ≤ now) → ∀ e, e ∈ log.current now ↔
    ∃ c ∈ past, c.2 = true ∧ now < c.1.time + window ∧ e = (Digest.ofFields c.1.fields, c.1.time)
  emitted : log.emitted = past.countP Prod.snd

theorem remembers_new (window : Nat) : Remembers window [] { interval := window } where
  interval := rfl
  current now _ e := by simp [DecryptLog.current]
  emitted := rfl

/-- A report is right to be answered so after past reports: it is logged unless one of the same failure
was logged less than a window before it. -/
def Due (window : Nat) (past : List (Report × Bool)) (r : Report) : Prop :=
  ∀ c ∈ past, c.2 = true → c.1.subject = r.subject → c.1.time + window ≤ r.time

section Step

variable {window : Nat} {past : List (Report × Bool)} {log : DecryptLog} {r : Report}

/-- What becomes of a report: it is new to the log, or the log remembers it. -/
theorem record_cases (log : DecryptLog) (now : Nat) (key : String) (cipher : Bytes) :
    (∀ e ∈ log.current now, e.1 ≠ fingerprint key cipher) ∧
        log.record now key cipher = ({ log with
          seen := (fingerprint key cipher, now) :: log.current now,
          emitted := log.emitted + 1 }, true) ∨
      (∃ e ∈ log.current now, e.1 = fingerprint key cipher) ∧
        log.record now key cipher = ({ log with seen := log.current now }, false) := by
  rw [DecryptLog.record]
  split
  · rename_i seen
    obtain ⟨e, among, same⟩ := List.any_eq_true.1 seen
    exact .inr ⟨⟨e, among, by simpa using same⟩, rfl⟩
  · rename_i unseen
    refine .inl ⟨fun e among same => unseen ?_, rfl⟩
    exact List.any_eq_true.2 ⟨e, among, by simpa using same⟩

theorem mem_current {now : Nat} {e : Digest × Nat} :
    e ∈ log.current now ↔ e ∈ log.seen ∧ now - e.2 < log.interval := by
  simp [DecryptLog.current]

/-- After a report the log remembers what is still within the window, and the report if it was
logged. -/
theorem mem_current_record {now : Nat} {e : Digest × Nat} :
    e ∈ (log.record r.time r.key r.failure.cipher).1.current now ↔
      ((log.record r.time r.key r.failure.cipher).2 = true ∧ e = (Digest.ofFields r.fields, r.time) ∨
        e ∈ log.current r.time) ∧ now - e.2 < log.interval := by
  rcases record_cases log r.time r.key r.failure.cipher with ⟨-, same⟩ | ⟨-, same⟩
  · rw [same, mem_current, List.mem_cons]
    simp [fingerprint, Report.fields]
  · rw [same, mem_current]
    simp

/-- The reports of the past came before. -/
theorem Telling.not_later (telling : Telling (past.map Prod.fst ++ [r])) :
    ∀ c ∈ past, c.1.time ≤ r.time := by
  have inOrder := telling.inOrder
  rw [List.map_append, List.pairwise_append] at inOrder
  intro c among
  exact inOrder.2.2 _ (List.mem_map_of_mem (List.mem_map_of_mem among)) _ (List.mem_singleton_self _)

/-- **One report.** It is logged exactly if it is due. -/
theorem Remembers.logged_iff (h : Remembers window past log)
    (telling : Telling (past.map Prod.fst ++ [r])) :
    (log.record r.time r.key r.failure.cipher).2 = true ↔ Due window past r := by
  have remembered := h.current r.time telling.not_later
  rcases record_cases log r.time r.key r.failure.cipher with ⟨new, same⟩ | ⟨known, same⟩
  · rw [same]
    refine iff_of_true rfl fun c among logged subject => Nat.le_of_not_lt fun within => ?_
    refine new _ ((remembered _).2 ⟨c, among, logged, within, rfl⟩) ?_
    rw [Report.fields_of_subject subject]
    rfl
  · rw [same]
    refine iff_of_false Bool.false_ne_true fun due => ?_
    obtain ⟨e, among, mark⟩ := known
    obtain ⟨c, past, logged, within, rfl⟩ := (remembered e).1 among
    have subject : c.1.subject = r.subject :=
      telling.apart c.1 (List.mem_append_left _ (List.mem_map_of_mem past)) r
        (List.mem_append_right _ (List.mem_singleton_self _)) mark
    exact absurd within (Nat.not_lt.2 (due c past logged subject))

/-- **One report.** The log remembers it and its answer. -/
theorem Remembers.record (h : Remembers window past log)
    (telling : Telling (past.map Prod.fst ++ [r])) :
    Remembers window (past ++ [(r, (log.record r.time r.key r.failure.cipher).2)])
      (log.record r.time r.key r.failure.cipher).1 := by
  have remembered := h.current r.time telling.not_later
  constructor
  · rcases record_cases log r.time r.key r.failure.cipher with ⟨-, same⟩ | ⟨-, same⟩
    · rw [same]
      exact h.interval
    · rw [same]
      exact h.interval
  · intro now before e
    have here : r.time ≤ now := before _ (List.mem_append_right _ (List.mem_singleton_self _))
    rw [mem_current_record, remembered, h.interval]
    constructor
    · rintro ⟨⟨logged, rfl⟩ | ⟨c, among, logged, -, rfl⟩, young⟩
      · refine ⟨_, List.mem_append_right _ (List.mem_singleton_self _), logged, ?_, rfl⟩
        show now < r.time + window
        omega
      · refine ⟨c, List.mem_append_left _ among, logged, ?_, rfl⟩
        show now < c.1.time + window
        omega
    · rintro ⟨c, among, logged, within, rfl⟩
      have old := before c among
      refine ⟨?_, by show now - c.1.time < window; omega⟩
      rcases List.mem_append.1 among with past | this
      · exact .inr ⟨c, past, logged, by omega, rfl⟩
      · obtain rfl := List.mem_singleton.1 this
        exact .inl ⟨logged, rfl⟩
  · rw [List.countP_append, ← h.emitted]
    rcases record_cases log r.time r.key r.failure.cipher with ⟨-, same⟩ | ⟨-, same⟩
    · rw [same]
      rfl
    · rw [same]
      rfl

end Step

/-! ## Any number of reports -/

section Run

variable {window : Nat} {past : List (Report × Bool)} {log : DecryptLog} {reports : List Report}

theorem hear_cons (log : DecryptLog) (r : Report) (rest : List Report) :
    log.hear (r :: rest) =
      (((log.record r.time r.key r.failure.cipher).1.hear rest).1,
        (r, (log.record r.time r.key r.failure.cipher).2) ::
          ((log.record r.time r.key r.failure.cipher).1.hear rest).2) := rfl

theorem hear_fst (log : DecryptLog) (reports : List Report) :
    (log.hear reports).2.map Prod.fst = reports := by
  induction reports generalizing log with
  | nil => rfl
  | cons r rest ih =>
    rw [hear_cons, List.map_cons, ih]

/-- What is told apart among reports is told apart among the first of them. -/
theorem Telling.of_append {more : List Report} (telling : Telling (reports ++ more)) :
    Telling reports where
  inOrder := by
    have inOrder := telling.inOrder
    rw [List.map_append] at inOrder
    exact (List.pairwise_append.1 inOrder).1
  apart a among b among' :=
    telling.apart a (List.mem_append_left _ among) b (List.mem_append_left _ among')

/-- The first of some reports, and then the others. -/
theorem Telling.cons {r : Report} (answer : Bool) (telling : Telling (past.map Prod.fst ++ r :: reports)) :
    Telling (past.map Prod.fst ++ [r]) ∧ Telling ((past ++ [(r, answer)]).map Prod.fst ++ reports) := by
  have same : past.map Prod.fst ++ r :: reports =
      (past ++ [(r, answer)]).map Prod.fst ++ reports := by simp
  rw [same] at telling
  refine ⟨?_, telling⟩
  have first := telling.of_append
  rwa [List.map_append] at first

/-- The log remembers all the reports that it has heard. -/
theorem Remembers.hear (h : Remembers window past log)
    (telling : Telling (past.map Prod.fst ++ reports)) :
    Remembers window (past ++ (log.hear reports).2) (log.hear reports).1 := by
  induction reports generalizing past log with
  | nil =>
    rw [DecryptLog.hear, List.append_nil]
    exact h
  | cons r rest ih =>
    obtain ⟨first, others⟩ := telling.cons (log.record r.time r.key r.failure.cipher).2
    have := ih (h.record first) others
    rwa [List.append_assoc] at this

/-- Every report is logged exactly if it is due after those before it. -/
theorem Remembers.answers (h : Remembers window past log)
    (telling : Telling (past.map Prod.fst ++ reports)) {before after : List (Report × Bool)}
    {c : Report × Bool} (split : (log.hear reports).2 = before ++ c :: after) :
    c.2 = true ↔ Due window (past ++ before) c.1 := by
  induction reports generalizing past log before with
  | nil => cases before <;> cases split
  | cons r rest ih =>
    obtain ⟨first, others⟩ := telling.cons (log.record r.time r.key r.failure.cipher).2
    rw [hear_cons] at split
    cases before with
    | nil =>
      obtain ⟨rfl, -⟩ := List.cons.inj split
      rw [List.append_nil]
      exact h.logged_iff first
    | cons b before =>
      obtain ⟨rfl, split'⟩ := List.cons.inj split
      have := ih (h.record first) others split'
      rwa [List.append_assoc] at this

/-- The answers to reports of one failure, by their times alone; `logged` are the times at which it was
logged before. -/
def spaced (window : Nat) : List Nat → List Nat → List Bool
  | _, [] => []
  | logged, t :: rest =>
    if ∀ u ∈ logged, u + window ≤ t then true :: spaced window (logged ++ [t]) rest
    else false :: spaced window logged rest

/-- The times at which a failure was logged. -/
def loggedTimes (subject : String × Bytes) (past : List (Report × Bool)) : List Nat :=
  (past.filter fun c => c.2 ∧ c.1.subject = subject).map fun c => c.1.time

theorem loggedTimes_append (subject : String × Bytes) (r : Report) (answer : Bool) :
    loggedTimes subject (past ++ [(r, answer)]) =
      loggedTimes subject past ++ if answer = true ∧ r.subject = subject then [r.time] else [] := by
  rw [loggedTimes, List.filter_append, List.map_append, loggedTimes]
  congr 1
  by_cases logged : answer = true ∧ r.subject = subject
  · rw [if_pos logged, List.filter_cons_of_pos (by simpa using logged)]
    rfl
  · rw [if_neg logged, List.filter_cons_of_neg (by simpa using logged)]
    rfl

theorem due_iff {r : Report} :
    Due window past r ↔ ∀ u ∈ loggedTimes r.subject past, u + window ≤ r.time := by
  constructor
  · intro due u among
    obtain ⟨c, kept, rfl⟩ := List.mem_map.1 among
    obtain ⟨among, logged, subject⟩ : c ∈ past ∧ c.2 = true ∧ c.1.subject = r.subject := by
      simpa using List.mem_filter.1 kept
    exact due c among logged subject
  · intro spaced c among logged subject
    refine spaced _ (List.mem_map_of_mem (List.mem_filter.2 ⟨among, ?_⟩))
    simp [logged, subject]

/-- What a report of one failure is answered depends on no other. -/
theorem Remembers.spaced (h : Remembers window past log)
    (telling : Telling (past.map Prod.fst ++ reports)) (subject : String × Bytes) :
    ((log.hear reports).2.filter fun c => c.1.subject = subject).map Prod.snd =
      DecryptLog.spaced window (loggedTimes subject past)
        ((reports.filter fun r => r.subject = subject).map Report.time) := by
  induction reports generalizing past log with
  | nil => rfl
  | cons r rest ih =>
    obtain ⟨first, others⟩ := telling.cons (log.record r.time r.key r.failure.cipher).2
    have rest := ih (h.record first) others
    have answer := (h.logged_iff first).trans due_iff
    rw [loggedTimes_append] at rest
    by_cases own : r.subject = subject
    · subst own
      rw [hear_cons, List.filter_cons_of_pos (by simp), List.filter_cons_of_pos (by simp),
        List.map_cons, List.map_cons, rest, DecryptLog.spaced]
      by_cases due : ∀ u ∈ loggedTimes r.subject past, u + window ≤ r.time
      · have logged := answer.2 due
        rw [if_pos due, logged, if_pos ⟨rfl, rfl⟩]
      · have not : (log.record r.time r.key r.failure.cipher).2 = false :=
          Bool.eq_false_iff.2 fun logged => due (answer.1 logged)
        rw [if_neg due, not, if_neg (by simp), List.append_nil]
    · rw [hear_cons, List.filter_cons_of_neg (by simpa using own),
        List.filter_cons_of_neg (by simpa using own), rest, if_neg (by simp [own]), List.append_nil]

end Run

/-- **The rate limit.** However reports from any number of readers come in, in the order of their times,
if the hash tells apart the failures that are reported: each is answered once, and it is logged exactly
if no report before it with the same key and the same bytes was logged less than a window earlier. So
reports of one failure that were logged are at least a window apart, and one that was not logged lies
within a window of one that was. The answers to the reports of one failure depend on nothing but their
times, not on other reports nor on any text. The log has counted the lines that were written. -/
theorem rate_limit_exact {window : Nat} {reports : List Report} {log : DecryptLog}
    {calls : List (Report × Bool)} (inOrder : (reports.map Report.time).Pairwise (· ≤ ·))
    (tells : Digest.Distinguishes (reports.map Report.fields))
    (heard : ({ interval := window } : DecryptLog).hear reports = (log, calls)) :
    calls.map Prod.fst = reports ∧
    (∀ before c after, calls = before ++ c :: after →
      (c.2 = true ↔ ¬ ∃ p ∈ before, p.2 = true ∧ p.1.key = c.1.key ∧
        p.1.failure.cipher = c.1.failure.cipher ∧ c.1.time < p.1.time + window) ∧
      (c.2 = true → ∀ p ∈ before, p.2 = true → p.1.subject = c.1.subject →
        p.1.time + window ≤ c.1.time) ∧
      (c.2 = false → ∃ p ∈ before, p.2 = true ∧ p.1.subject = c.1.subject ∧
        p.1.time ≤ c.1.time ∧ c.1.time < p.1.time + window)) ∧
    (∀ subject, (calls.filter fun c => c.1.subject = subject).map Prod.snd =
      spaced window [] ((reports.filter fun r => r.subject = subject).map Report.time)) ∧
    log.emitted = calls.countP Prod.snd := by
  have telling := telling_of_distinguishes inOrder tells
  have remembers := remembers_new window
  have fst := hear_fst { interval := window } reports
  have answers := @remembers.answers _ _ _ reports telling
  have alone := remembers.spaced telling
  have count := (remembers.hear telling).emitted
  rw [heard] at fst answers alone count
  refine ⟨fst, ?_, alone, count⟩
  intro before c after split
  have due : c.2 = true ↔ Due window before c.1 := answers split
  refine ⟨due.trans ?_, due.1, ?_⟩
  · constructor
    · rintro due ⟨p, among, logged, key, cipher, within⟩
      have subject : p.1.subject = c.1.subject := by rw [Report.subject, key, cipher, Report.subject]
      exact absurd within (Nat.not_lt.2 (due p among logged subject))
    · intro none p among logged subject
      obtain ⟨key, cipher⟩ := Prod.mk.inj subject
      exact Nat.le_of_not_lt fun within => none ⟨p, among, logged, key, cipher, within⟩
  · intro silent
    have not : ¬ Due window before c.1 := fun h => by
      rw [due.2 h] at silent
      cases silent
    obtain ⟨p, among, logged, subject, within⟩ : ∃ p ∈ before, p.2 = true ∧
        p.1.subject = c.1.subject ∧ c.1.time < p.1.time + window := by
      simpa [Due] using not
    refine ⟨p, among, logged, subject, ?_, within⟩
    rw [← fst, split, List.map_append, List.map_append, List.pairwise_append] at inOrder
    exact inOrder.2.2 _ (List.mem_map_of_mem (List.mem_map_of_mem among)) _ (List.mem_cons_self ..)

/-- Two failures: the first is reported at 0, within the window of ten, and again at its very end. -/
def outbreak : List Report :=
  [⟨0, "a", ⟨[1], "x"⟩⟩, ⟨5, "a", ⟨[1], "y"⟩⟩, ⟨9, "a", ⟨[2], "x"⟩⟩, ⟨10, "a", ⟨[1], "x"⟩⟩]

/-- Only the report within the window is not logged. -/
theorem rate_limit_exact_of_outbreak : ∃ log calls,
    ({ interval := 10 } : DecryptLog).hear outbreak = (log, calls) ∧
      ((calls.filter fun c => c.1.subject = ("a", [1])).map Prod.snd) = [true, false, true] ∧
      log.emitted = 3 := by
  have inOrder : (outbreak.map Report.time).Pairwise (· ≤ ·) := by decide
  have tells : Digest.Distinguishes (outbreak.map Report.fields) :=
    ⟨by decide +kernel, by decide +kernel⟩
  have heard : ({ interval := 10 } : DecryptLog).hear outbreak = (_, _) := rfl
  obtain ⟨-, -, alone, count⟩ := rate_limit_exact inOrder tells heard
  exact ⟨_, _, rfl, alone ("a", [1]), count.trans (by decide +kernel)⟩

end DecryptLog
end CertWatch
