import CertWatch.Config.Text
import CertWatch.Proofs.Json.Word
import CertWatch.Proofs.Prefix
import CertWatch.Proofs.Time.Regular

/-!
# Settings are read back

Settings that were read hold numbers below 2^64 and a timestamp that can be written. Written settings name every
field, so they are read back as they are, on whatever machine.
-/

namespace CertWatch
set_option autoImplicit false

/-! ## What a field can hold -/

namespace Json

variable {α : Type} {P : α → Prop} {read : Bytes → Option α}

/-- A field holds what its default has and what its reader makes sure of. -/
theorem fieldOr_holds {fallback a : α} {text : Option Bytes} (found : fieldOr fallback read text = some a)
    (byDefault : P fallback) (reads : ∀ bs a, read bs = some a → P a) : P a := by
  cases text with
  | none =>
    cases found
    exact byDefault
  | some bs => exact reads bs a found

theorem readOption_holds (reads : ∀ bs a, read bs = some a → P a) (bs : Bytes) (o : Option α)
    (found : readOption read bs = some o) : ∀ a ∈ o, P a := by
  unfold readOption at found
  split at found
  · cases found
    exact nofun
  · obtain ⟨b, value, same⟩ := Option.map_eq_some_iff.1 found
    cases same
    exact fun c same => Option.some.inj same ▸ reads bs b value

end Json

/-- A number that fits into sixty-four bits. -/
def Json.IsWord (n : Nat) : Prop := n < Json.wordBound

instance (n : Nat) : Decidable (Json.IsWord n) := inferInstanceAs (Decidable (n < Json.wordBound))

theorem Json.isWord_of_readWord (bs : Bytes) (n : Nat) (read : readWord bs = some n) : IsWord n := lt_of_readWord read

open Json (wordBound Written IsWord)

theorem Timestamp.isRegular_of_read (bs : Bytes) (t : Timestamp) (read : Timestamp.read bs = some t) :
    t.IsRegular := by
  obtain ⟨s, -, read⟩ := Option.bind_eq_some_iff.1 read
  cases here : ofRelaxed s with
  | error f => rw [here] at read; cases read
  | ok t' =>
    rw [here] at read
    cases read
    exact isRegular_of_ofRelaxed here

/-! ## The parts of settings -/

namespace NamespaceConfig

/-- Settings of the namespace that can be written and read back. -/
structure Fits (c : NamespaceConfig) : Prop where
  refreshBefore : ∀ t ∈ c.refreshBefore, t.IsRegular
  leaseSeconds : IsWord c.leaseSeconds
  retryDelayMs : IsWord c.retryDelayMs
  acquireTimeoutSeconds : ∀ n ∈ c.acquireTimeoutSeconds, IsWord n

variable {c : NamespaceConfig} {hostname : Option String}

theorem fits_of_read (bs : Bytes) (c : NamespaceConfig) (accepted : read hostname bs = some c) : c.Fits := by
  obtain ⟨field, -, accepted⟩ := Option.bind_eq_some_iff.1 accepted
  obtain ⟨host, -, accepted⟩ := Option.bind_eq_some_iff.1 accepted
  obtain ⟨fixed, -, accepted⟩ := Option.bind_eq_some_iff.1 accepted
  obtain ⟨cutoff, cutoffs, accepted⟩ := Option.bind_eq_some_iff.1 accepted
  obtain ⟨lease, leases, accepted⟩ := Option.bind_eq_some_iff.1 accepted
  obtain ⟨delay, delays, accepted⟩ := Option.bind_eq_some_iff.1 accepted
  obtain ⟨timeout, timeouts, accepted⟩ := Option.bind_eq_some_iff.1 accepted
  cases accepted
  exact {
    refreshBefore := Json.fieldOr_holds cutoffs nofun (Json.readOption_holds Timestamp.isRegular_of_read)
    leaseSeconds := Json.fieldOr_holds leases (by decide : IsWord 10) Json.isWord_of_readWord
    retryDelayMs := Json.fieldOr_holds delays (by decide : IsWord 100) Json.isWord_of_readWord
    acquireTimeoutSeconds := Json.fieldOr_holds timeouts nofun (Json.readOption_holds Json.isWord_of_readWord) }

/-- Written settings of the namespace are read back. -/
theorem Fits.written (fits : c.Fits) (hostname : Option String) : Written (read hostname) c.text c := by
  have cutoff : ∀ t ∈ c.refreshBefore, Written Timestamp.read t.jsonText t := fun t here =>
    Timestamp.written_jsonText (fits.refreshBefore t here)
  have lease := Json.written_wordText fits.leaseSeconds
  have delay := Json.written_wordText fits.retryDelayMs
  have timeout : ∀ n ∈ c.acquireTimeoutSeconds, Written Json.readWord (Json.wordText n) n := fun n here =>
    Json.written_wordText (fits.acquireTimeoutSeconds n here)
  have fixed : ∀ s ∈ c.staticPrefix, Written Json.readString (Json.quote s) s := fun s _ => Json.written_quote s
  refine Json.written_recordText fieldNames ?_ rfl (by decide) fun field found each => ?_
  · simp only [List.forall_mem_cons]
    exact ⟨Json.isValueText_quote _, Json.isValueText_optionText fixed, Json.isValueText_optionText cutoff,
      lease.value, delay.value, Json.isValueText_optionText timeout, List.forall_mem_nil _⟩
  · simp only [List.forall_mem_cons] at each
    rw [read, found]
    simp [each, Json.fieldOr, Json.readString_quote, Json.readOption_optionText fixed,
      Json.readOption_optionText cutoff, Json.readOption_optionText timeout, lease.back, delay.back]

end NamespaceConfig

/-- Written settings of sealing are read back. -/
theorem SealConfig.written (c : SealConfig) : Written read c.text c := by
  have secret : ∀ s ∈ c.secret, Written Json.readString (Json.quote s) s := fun s _ => Json.written_quote s
  refine Json.written_recordText ["aes_key"] ?_ rfl (by decide) fun field found each => ?_
  · simp only [List.forall_mem_cons]
    exact ⟨Json.isValueText_optionText secret, List.forall_mem_nil _⟩
  · simp only [List.forall_mem_cons] at each
    rw [read, found]
    simp [each, Json.fieldOr, Json.readOption_optionText secret]

namespace PollConfig

/-- Settings of polling that can be written and read back. -/
def Fits (c : PollConfig) : Prop := IsWord c.intervalMs

theorem fits_of_read (bs : Bytes) (c : PollConfig) (accepted : read bs = some c) : c.Fits := by
  obtain ⟨field, -, accepted⟩ := Option.bind_eq_some_iff.1 accepted
  obtain ⟨interval, intervals, accepted⟩ := Option.bind_eq_some_iff.1 accepted
  cases accepted
  exact Json.fieldOr_holds (P := IsWord) intervals (by decide : IsWord 1000) Json.isWord_of_readWord

/-- Written settings of polling are read back. -/
theorem Fits.written {c : PollConfig} (fits : c.Fits) : Written read c.text c := by
  have interval := Json.written_wordText fits
  refine Json.written_recordText ["poll_interval_ms"] ?_ rfl (by decide) fun field found each => ?_
  · simp only [List.forall_mem_cons]
    exact ⟨interval.value, List.forall_mem_nil _⟩
  · simp only [List.forall_mem_cons] at each
    rw [read, found]
    simp [each, Json.fieldOr, interval.back]

end PollConfig

namespace BundleConfig

/-- Settings of bundles that can be written and read back. -/
def Fits (c : BundleConfig) : Prop := IsWord c.intervalMs

theorem fits_of_read (bs : Bytes) (c : BundleConfig) (accepted : read bs = some c) : c.Fits := by
  obtain ⟨field, -, accepted⟩ := Option.bind_eq_some_iff.1 accepted
  obtain ⟨interval, intervals, accepted⟩ := Option.bind_eq_some_iff.1 accepted
  obtain ⟨folder, -, accepted⟩ := Option.bind_eq_some_iff.1 accepted
  obtain ⟨roles, -, accepted⟩ := Option.bind_eq_some_iff.1 accepted
  cases accepted
  exact Json.fieldOr_holds (P := IsWord) intervals (by decide : IsWord 5000) Json.isWord_of_readWord

/-- Written settings of bundles are read back. -/
theorem Fits.written {c : BundleConfig} (fits : c.Fits) : Written read c.text c := by
  have interval := Json.written_wordText fits
  have roles := Json.readStrings_listText c.roles
  refine Json.written_recordText ["poll_interval_ms", "root_folder", "roles"] ?_ rfl (by decide)
    fun field found each => ?_
  · simp only [List.forall_mem_cons]
    exact ⟨interval.value, Json.isValueText_quote _, Json.isValueText_quotes c.roles, List.forall_mem_nil _⟩
  · simp only [List.forall_mem_cons] at each
    rw [read, found]
    simp [each, Json.fieldOr, Json.readString_quote, interval.back, roles]

end BundleConfig

/-! ## Whole settings -/

namespace Config

/-- Settings that can be written and read back. -/
structure Fits (c : Config) : Prop where
  allocation : c.allocation.Fits
  records : c.records.Fits
  bundles : c.bundles.Fits
  errorIntervalSeconds : IsWord c.errorIntervalSeconds

variable {c : Config}

theorem fits_of_read {hostname : Option String} {bs : Bytes} (accepted : read hostname bs = some c) : c.Fits := by
  obtain ⟨field, -, accepted⟩ := Option.bind_eq_some_iff.1 accepted
  obtain ⟨allocation, allocations, accepted⟩ := Option.bind_eq_some_iff.1 accepted
  obtain ⟨sealing, -, accepted⟩ := Option.bind_eq_some_iff.1 accepted
  obtain ⟨records, ofRecords, accepted⟩ := Option.bind_eq_some_iff.1 accepted
  obtain ⟨bundles, ofBundles, accepted⟩ := Option.bind_eq_some_iff.1 accepted
  obtain ⟨interval, intervals, accepted⟩ := Option.bind_eq_some_iff.1 accepted
  cases accepted
  have byDefault : (Config.default hostname).allocation.Fits :=
    ⟨nofun, (by decide : IsWord 10), (by decide : IsWord 100), nofun⟩
  exact {
    allocation := Json.fieldOr_holds allocations byDefault NamespaceConfig.fits_of_read
    records := Json.fieldOr_holds (P := PollConfig.Fits) ofRecords (by decide : IsWord 1000) PollConfig.fits_of_read
    bundles := Json.fieldOr_holds (P := BundleConfig.Fits) ofBundles (by decide : IsWord 5000) BundleConfig.fits_of_read
    errorIntervalSeconds := Json.fieldOr_holds intervals (by decide : IsWord 10) Json.isWord_of_readWord }

/-- **Written settings are read back, on whatever machine.** -/
theorem Fits.written (fits : c.Fits) (hostname : Option String) : Written (read hostname) c.text c := by
  have allocation := fits.allocation.written hostname
  have sealing := c.sealing.written
  have records := fits.records.written
  have bundles := fits.bundles.written
  have interval := Json.written_wordText fits.errorIntervalSeconds
  refine Json.written_recordText fieldNames ?_ rfl (by decide) fun field found each => ?_
  · simp only [List.forall_mem_cons]
    exact ⟨allocation.value, sealing.value, records.value, bundles.value, interval.value, List.forall_mem_nil _⟩
  · simp only [List.forall_mem_cons] at each
    rw [read, found]
    simp [each, Json.fieldOr, allocation.back, sealing.back, records.back, bundles.back, interval.back]

end Config
end CertWatch
