import CertWatch.Proofs.Watch.Rewriting
import CertWatch.Proofs.Watch.Tracing

/-!
# Changes are detected exactly

A poll of a store that does not change finds nothing new exactly if it reads, in substance, what the
last successful poll had read. So writing a value anew goes unnoticed, and writing another value never
does.
-/

namespace CertWatch
set_option autoImplicit false

open Digest (Distinguishes)

namespace View

variable {v : View}

theorem keys_records (v : View) : v.records.map Record.key = v.keys := by
  rw [records, List.map_map]
  exact List.map_id'' (fun _ => rfl) v.keys

/-- In substance, the records of a store are the values of the listed keys. -/
theorem get?_values_iff {key : String} {value : Bytes} :
    (Table.ofList (v.records.map fun r => (r.key, r.value))).get? key = some value ↔
      key ∈ v.keys ∧ (v.record key).value = value := by
  have distinct : (v.records.map Record.key).Nodup := v.keys_records ▸ Scope.nodup_tidy _
  rw [Table.get?_ofList_map distinct]
  by_cases listed : key ∈ v.keys
  · have among : v.record key ∈ v.records := List.mem_map_of_mem listed
    have found := ChangeSet.find?_key distinct among
    rw [key_record] at found
    simp [found, listed]
  · have absent := ChangeSet.find?_key_eq_none (v.keys_records.symm ▸ listed)
    simp [absent, listed]

end View

namespace Tracing

/-- Whenever the next poll is made, of a store that does not change meanwhile and answers every call, it
succeeds, its caller is told these changes, and the stream hears of just them. -/
def Polls (t : Tracing) (v : View) (told : Option Changes) : Prop :=
  ∀ answer, v.content.Answers answer → ∀ n now, ∃ found,
    t.watcher.plan.run answer v.handler n = .ok found ∧
      (t.watcher.conclude now (.ok found)).2 = .ok told ∧
      ∀ id, (t.polling.leave id (t.watcher.conclude now (.ok found)).1).heard =
        t.polling.heard ++ told.toList

section Polls

variable {scope : Scope} {memory : Memory} {name : String} {t : Tracing} {v : View}

/-- A poll tells the changes that taking its reading over gives, if there are any. -/
theorem polls_changes (run : Run Step (start scope memory name) t)
    (fresh : memory.snapshot = memory.blank) (here : v.scope = scope) {changes : Changes}
    (found : (t.watcher.memory.commit (v.reading memory.kind)).2 = changes) :
    t.Polls v (if changes.isEmpty then none else some changes) := by
  have traced := consistent_of_run fresh run
  obtain ⟨told, stream⟩ : ∃ told, t.watcher.bus.Streams told :=
    ((run_polling run).keeps (fun _ _ _ h step => (h.step step).1)
      (Polling.consistent_start scope fresh name)).stream
  intro answer answers n now
  have read := View.yields_reading answers t.watcher.memory
  rw [traced.watches, here] at read
  have ended : t.watcher.plan.run answer v.handler n =
      .ok (t.watcher.memory.commit (v.reading memory.kind)) := by
    rw [Watcher.plan, traced.here, Memory.poll_eq]
    exact read.map t.watcher.memory.commit n
  generalize t.watcher.memory.commit (v.reading memory.kind) = result at ended found
  obtain ⟨after, changes'⟩ := result
  obtain rfl : changes' = changes := found
  refine ⟨_, ended, ?_⟩
  cases empty : changes'.isEmpty with
  | true =>
    rw [Polling.conclude_of_isEmpty empty]
    refine ⟨rfl, fun id => ?_⟩
    rw [if_pos rfl, Option.toList_none, List.append_nil]
    rfl
  | false =>
    obtain ⟨bus, concluded, stream'⟩ := Polling.conclude_of_changes after now stream empty
    rw [concluded]
    refine ⟨rfl, fun id => ?_⟩
    have leaving : (t.polling.leave id { t.watcher with memory := after, bus := bus }).watcher.bus.Streams
        (told ++ [(now, changes')]) := stream'
    have before : t.polling.heard = told.map Prod.snd := Polling.heard_of_streams stream
    rw [Polling.heard_of_streams leaving, before, List.map_append]
    rfl

/-- A poll is silent exactly if it reads the digests that the last successful poll read. -/
theorem exists_polls (run : Run Step (start scope memory name) t) (fresh : memory.snapshot = memory.blank)
    (here : v.scope = scope) :
    ∃ told, t.Polls v told ∧ (told = none ↔ t.last.snapshot = (v.reading memory.kind).snapshot) := by
  have traced := consistent_of_run fresh run
  have of : (v.reading memory.kind).Of t.watcher.memory.kind := traced.watches ▸ v.of_reading memory
  obtain ⟨-, -, silent⟩ := Memory.commit_spec of
  refine ⟨_, polls_changes run fresh here rfl, ?_⟩
  rw [← traced.snapshot, ← silent]
  cases (t.watcher.memory.commit (v.reading memory.kind)).2.isEmpty <;> simp

/-- **Detection.** After any run of polls, whose last success is known by what it read, a poll of a
store that does not change and answers every call succeeds. It tells nothing, and the stream hears
nothing, exactly if what it reads is in substance what the last successful poll read, if the hash
tells apart the messages that the two readings have digests of; in particular it tells of every key
whose value is another. And where what was read last was merely written anew it tells nothing: records
in any case, bundles if the same keys are chosen, as they are if no modification is another. -/
theorem polls_exactly (fresh : memory.snapshot = memory.blank)
    (run : Run Step (start scope memory name) t) (here : v.scope = scope) :
    (∀ p, Run Polling.Step (Polling.start scope memory name) p →
      ∃ t', Run Step (start scope memory name) t' ∧ t'.polling = p) ∧
    (Distinguishes (t.last.hashed ++ (v.reading memory.kind).hashed) → ∃ told, t.Polls v told ∧
      (told = none ↔ t.last.substance = (v.reading memory.kind).substance) ∧
      ∀ values, t.last.substance = .records values → ∀ key value,
        values.get? key = some value → value ≠ (v.record key).value → told ≠ none) ∧
    ∀ earlier : View, t.last = earlier.reading memory.kind → earlier.Rewritten v →
      (∀ c, memory.kind = some c →
        (earlier.bundles c).map Bundle.selection = (v.bundles c).map Bundle.selection ∨
          ∀ key ∈ v.keys, (earlier.record key).modified = (v.record key).modified) →
      t.Polls v none := by
  have traced := consistent_of_run fresh run
  have of := v.of_reading memory
  obtain ⟨told, polls, silent⟩ := exists_polls run fresh here
  refine ⟨fun p ran => exists_run ran, fun tells => ⟨told, polls, ?_⟩, fun earlier read rewritten chosen => ?_⟩
  · have exact_ : told = none ↔ t.last.substance = (v.reading memory.kind).substance :=
      silent.trans ⟨traced.last.substance_eq of tells, traced.last.snapshot_eq of⟩
    refine ⟨exact_, fun values last key value before other nothing => other ?_⟩
    have same := exact_.1 nothing
    rw [last] at same
    cases watched : memory.kind with
    | none =>
      rw [watched] at same
      rw [Substance.records.inj same, View.get?_values_iff] at before
      exact before.2.symm
    | some c =>
      rw [watched] at same
      cases same
  · have same : t.last.substance = (v.reading memory.kind).substance := by
      rw [read]
      cases watched : memory.kind with
      | none => exact rewritten.records_eq
      | some c =>
        refine rewritten.bundles_eq ?_
        rcases chosen c watched with selected | modified
        · exact selected
        · exact rewritten.selections_eq (rewritten.keys ▸ modified)
    obtain rfl : told = none := silent.2 (traced.last.snapshot_eq of same)
    exact polls

end Polls

/-- A store with one record. -/
def oneRecord (text : String) : View :=
  ⟨⟨"n", none⟩, ⟨fun _ => ["n/a"], fun _ => some (Utf8.encode text)⟩, fun _ _ => none⟩

/-- After a poll of a value, the value spelled otherwise goes unnoticed, and another value does not. -/
theorem polls_exactly_of_respelled_value :
    ∃ t, Run Step (start ⟨"n", none⟩ (.records {}) "") t ∧
      t.Polls (oneRecord "x\x7b \"value\" : \"QQ==\" \x7d") none ∧
      ∃ told, t.Polls (oneRecord "\x7b\"value\":\"Qg==\"\x7d") told ∧ told ≠ none := by
  have entered : Step (start ⟨"n", none⟩ (.records {}) "") (.entered 7) _ :=
    .enter 7 (by simp [start, Polling.start])
  have run := (Run.single entered).tail (.begin 7 rfl rfl) |>.tail (.answer 7 rfl (.ok ["n/a"]))
    |>.tail (.answer 7 rfl (.ok (some (Utf8.encode "\x7b\"value\":\"QQ==\"\x7d"))))
    |>.tail (.conclude 7 rfl 0)
  refine ⟨_, run, ?_, ?_⟩
  · obtain ⟨-, -, unnoticed⟩ :=
      polls_exactly (v := oneRecord "x\x7b \"value\" : \"QQ==\" \x7d") rfl run rfl
    refine unnoticed (oneRecord "\x7b\"value\":\"QQ==\"\x7d") rfl ⟨rfl, rfl, rfl, fun key _ => .inr ?_⟩ ?_
    · have first : Envelope.Holds ⟨[0x41], none⟩ (Utf8.encode "\x7b\"value\":\"QQ==\"\x7d") :=
        ⟨[], "\"value\":\"QQ==\"\x7d".toList, by simp, by decide +kernel, by decide +kernel⟩
      have second : Envelope.Holds ⟨[0x41], none⟩ (Utf8.encode "x\x7b \"value\" : \"QQ==\" \x7d") :=
        ⟨[0x78], " \"value\" : \"QQ==\" \x7d".toList, by decide, by decide +kernel, by decide +kernel⟩
      exact ⟨_, _, _, _, rfl, rfl, rfl, rfl, .inr ⟨_, _, first, second, rfl⟩⟩
    · rintro c ⟨⟩
  · obtain ⟨-, noticed, -⟩ :=
      polls_exactly (v := oneRecord "\x7b\"value\":\"Qg==\"\x7d") rfl run rfl
    obtain ⟨told, polls, -, changed⟩ := noticed ⟨by decide +kernel, by decide +kernel⟩
    exact ⟨told, polls, changed _ rfl "n/a" [0x41] (by decide +kernel) (by decide +kernel)⟩

end Tracing
end CertWatch
