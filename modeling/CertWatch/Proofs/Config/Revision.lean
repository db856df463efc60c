import CertWatch.Proofs.Config.Written
import CertWatch.Proofs.Json.Revision

/-!
# Revised settings

What a field of the settings is read as does not change when its text is revised, and neither do the settings as a
whole, whether they are objects or arrays.
-/

namespace CertWatch
set_option autoImplicit false

open Json (IsArray IsObject Revised Shape Steady steady_record bind_field steady_readString steady_readWord
  steady_readOption steady_readStrings)

/-- A record of fields that have no fields themselves. -/
def Json.Shape.flat (names : List String) : Shape := .record (names.map fun n => (n, .plain))

theorem Timestamp.steady_read (s : Shape) : Steady s Timestamp.read := by
  intro bs bs' t revised accepted
  obtain ⟨text, string, accepted⟩ := Option.bind_eq_some_iff.1 accepted
  rw [Timestamp.read, steady_readString s bs bs' text revised string]
  exact accepted

/-- The shape of the settings of the namespace. -/
def NamespaceConfig.shape : Shape := .flat fieldNames

theorem NamespaceConfig.steady_read (hostname : Option String) : Steady shape (read hostname) := by
  refine steady_record (by decide : fieldNames.Nodup) fun field field' c related => ?_
  refine bind_field (steady_readString _) (related "host" (by decide)) fun _ => ?_
  refine bind_field (steady_readOption (steady_readString _)) (related "static_prefix" (by decide)) fun _ => ?_
  refine bind_field (steady_readOption (Timestamp.steady_read _)) (related "refresh_before" (by decide)) fun _ => ?_
  refine bind_field (steady_readWord _) (related "lock_lease_secs" (by decide)) fun _ => ?_
  refine bind_field (steady_readWord _) (related "lock_retry_delay_ms" (by decide)) fun _ => ?_
  exact bind_field (steady_readOption (steady_readWord _)) (related "lock_acquire_timeout_secs" (by decide))
    fun _ => id

/-- The shape of the settings of sealing. -/
def SealConfig.shape : Shape := .flat ["aes_key"]

theorem SealConfig.steady_read : Steady shape read := by
  refine steady_record (by decide : ["aes_key"].Nodup) fun field field' c related => ?_
  exact bind_field (steady_readOption (steady_readString _)) (related "aes_key" (by decide)) fun _ => id

/-- The shape of the settings of polling. -/
def PollConfig.shape : Shape := .flat ["poll_interval_ms"]

theorem PollConfig.steady_read : Steady shape read := by
  refine steady_record (by decide : ["poll_interval_ms"].Nodup) fun field field' c related => ?_
  exact bind_field (steady_readWord _) (related "poll_interval_ms" (by decide)) fun _ => id

/-- The shape of the settings of bundles. -/
def BundleConfig.shape : Shape := .flat ["poll_interval_ms", "root_folder", "roles"]

theorem BundleConfig.steady_read : Steady shape read := by
  have distinct : ["poll_interval_ms", "root_folder", "roles"].Nodup := by decide
  refine steady_record distinct fun field field' c related => ?_
  refine bind_field (steady_readWord _) (related "poll_interval_ms" (by decide)) fun _ => ?_
  refine bind_field (steady_readString _) (related "root_folder" (by decide)) fun _ => ?_
  exact bind_field (steady_readStrings _) (related "roles" (by decide)) fun _ => id

namespace Config

/-- The shape of settings. -/
def shape : Shape := .record [
  ("namespace", NamespaceConfig.shape),
  ("crypto", SealConfig.shape),
  ("records", PollConfig.shape),
  ("groups", BundleConfig.shape),
  ("decrypt_error_log_interval_secs", .plain)]

theorem shape_fields : shape.field "namespace" = NamespaceConfig.shape ∧ shape.field "crypto" = SealConfig.shape ∧
    shape.field "records" = PollConfig.shape ∧ shape.field "groups" = BundleConfig.shape := by
  simp [shape, Shape.field]

theorem steady_read (hostname : Option String) : Steady shape (read hostname) := by
  obtain ⟨allocation, sealing, records, bundles⟩ := shape_fields
  refine steady_record (by decide : fieldNames.Nodup) fun field field' c related => ?_
  have related' {s : Shape} {n : String} (known : n ∈ fieldNames) (here : shape.field n = s) :
      Option.Rel (Revised s) (field n) (field' n) := here ▸ related n known
  refine bind_field (NamespaceConfig.steady_read hostname) (related' (by decide) allocation) fun _ => ?_
  refine bind_field SealConfig.steady_read (related' (by decide) sealing) fun _ => ?_
  refine bind_field PollConfig.steady_read (related' (by decide) records) fun _ => ?_
  refine bind_field BundleConfig.steady_read (related' (by decide) bundles) fun _ => ?_
  exact bind_field (steady_readWord _) (related "decrypt_error_log_interval_secs" (by decide)) fun _ => id

/-- **Settings are read back as they were written, and revising their text does not change them.** Every text that is
accepted as settings is an object or an array. What is written for the settings it holds is accepted on every machine
and gives the same settings. A text in which the members of objects stand in another order, or to whose records members
with unknown names have been added, gives the same settings too. -/
theorem settings_read_back {hostname : Option String} {bs : Bytes} {c : Config}
    (accepted : read hostname bs = some c) :
    ((∃ members, IsObject Json.quoted bs members) ∨ ∃ items, IsArray bs items) ∧
      (∀ machine, read machine (Utf8.encodeChars c.text) = some c) ∧
      ∀ bs', Revised shape bs bs' → read hostname bs' = some c := by
  obtain ⟨field, found, -⟩ := Option.bind_eq_some_iff.1 accepted
  have fits := fits_of_read accepted
  refine ⟨Json.isObject_or_isArray found, ?_, ?_⟩
  · exact fun machine => (fits.written machine).back
  · exact fun bs' revised => steady_read hostname bs bs' c revised accepted

section Example

/-- Settings of bundles with an escaped character, and none for the folder. -/
def sparseBundles : Bytes :=
  Utf8.encode "\x7b\"poll_interval_ms\": 18446744073709551615, \"roles\": [\"p\\u0065m\"]\x7d"

/-- The same in another order, with members that have an unknown name. -/
def fullerBundles : Bytes :=
  Utf8.encode ("\x7b\"v\": [1e999, \x7b\x7d], \"roles\": [\"p\\u0065m\"], \"v\": null, " ++
    "\"poll_interval_ms\": 18446744073709551615\x7d")

/-- Settings of the namespace by position, with an offset in the timestamp. -/
def listedNamespace : Bytes := Utf8.encode "[\"node\", null, \"2026-01-02 03:04:05.000000007 +01:00\"]"

/-- An object with two members. -/
def pairText (first second : String × Bytes) : Bytes :=
  0x7B :: (Utf8.encodeChars (Json.quote first.1) ++ 0x3A :: first.2 ++ 0x2C ::
    Utf8.encodeChars (Json.quote second.1) ++ 0x3A :: second.2 ++ [0x7D])

theorem revised_bundles : Revised BundleConfig.shape sparseBundles fullerBundles := by
  have before : Json.whole Json.memberTexts sparseBundles =
      some [("poll_interval_ms", Utf8.encode "18446744073709551615"), ("roles", Utf8.encode "[\"p\\u0065m\"]")] := by
    decide +kernel
  have after : Json.whole Json.memberTexts fullerBundles =
      some [("v", Utf8.encode "[1e999, \x7b\x7d]"), ("roles", Utf8.encode "[\"p\\u0065m\"]"), ("v", Utf8.encode "null"),
        ("poll_interval_ms", Utf8.encode "18446744073709551615")] := by
    decide +kernel
  have unknown : ∀ m ∈ [("v", Utf8.encode "[1e999, \x7b\x7d]"), ("v", Utf8.encode "null")],
      m.1 ∉ BundleConfig.shape.names := by decide +kernel
  exact .reordered (Json.memberTexts_iff.1 before) (Json.memberTexts_iff.1 after) unknown (by decide +kernel)

/-- Two members change places while the value of the first is revised. -/
theorem revised_pair {s : Shape} {a b : String} {first first' second bs bs' : Bytes}
    (before : Json.whole Json.memberTexts bs = some [(a, first), (b, second)])
    (after : Json.whole Json.memberTexts bs' = some [(b, second), (a, first')])
    (revised : Revised (s.field a) first first') : Revised s bs bs' := by
  have named : [(a, first'), (b, second)].map Prod.fst = [(a, first), (b, second)].map Prod.fst := rfl
  have unknown : ∀ m ∈ ([] : List (String × Bytes)), m.1 ∉ s.names := nofun
  refine .object (Json.memberTexts_iff.1 before) (Json.memberTexts_iff.1 after) named ?_ unknown (.swap _ _ [])
  intro i m m' here here' _
  match i with
  | 0 => cases here; cases here'; exact revised
  | 1 => cases here; cases here'; exact .same
  | i + 2 => cases here

/-- What both texts hold. -/
def sparseSettings : Config where
  allocation := { host := "node", refreshBefore := some ⟨63934538645, 7⟩ }
  bundles := { intervalMs := 18446744073709551615, roles := ["pem"] }

theorem settings_read_back_of_reordered_bundles :
    read none (pairText ("groups", sparseBundles) ("namespace", listedNamespace)) = some sparseSettings ∧
      read none (Utf8.encodeChars sparseSettings.text) = some sparseSettings ∧
      read none (pairText ("namespace", listedNamespace) ("groups", fullerBundles)) = some sparseSettings := by
  have accepted : read none (pairText ("groups", sparseBundles) ("namespace", listedNamespace)) =
      some sparseSettings := by decide +kernel
  have before : Json.whole Json.memberTexts (pairText ("groups", sparseBundles) ("namespace", listedNamespace)) =
      some [("groups", sparseBundles), ("namespace", listedNamespace)] := by decide +kernel
  have after : Json.whole Json.memberTexts (pairText ("namespace", listedNamespace) ("groups", fullerBundles)) =
      some [("namespace", listedNamespace), ("groups", fullerBundles)] := by decide +kernel
  have bundles : Revised (shape.field "groups") sparseBundles fullerBundles := shape_fields.2.2.2 ▸ revised_bundles
  obtain ⟨-, written, revised⟩ := settings_read_back accepted
  exact ⟨accepted, written none, revised _ (revised_pair before after bundles)⟩

end Example

end Config
end CertWatch
