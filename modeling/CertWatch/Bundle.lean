import CertWatch.KeyPath
import CertWatch.Record

/-!
# Certificate bundles

Records laid out as `<root>/<service>/<domain>/<name>.<role>` under the namespace belong to the
bundle with the key `(service, domain, name)`. A bundle holds one record for each role; by default
these are the properties in JSON, the private key and the certificate chain.
-/

namespace CertWatch
set_option autoImplicit false

/-- What the records of one bundle have in common. -/
structure BundleKey where
  service : String
  domain : String
  name : String
  deriving DecidableEq, Repr

namespace BundleKey

/-- The parts of the key in order. -/
def parts (k : BundleKey) : List String := [k.service, k.domain, k.name]

theorem parts_injective {a b : BundleKey} (h : a.parts = b.parts) : a = b := by
  cases a; cases b; simpa [parts] using h

/-- The order of texts by their parts, of which the first that differ decide. -/
def partsBefore (a b : List String) : Prop := @LE.le (List String) List.instLE a b

/-- Bundle keys are ordered by service, then domain, then name. -/
instance : LT BundleKey := ⟨fun a b => a.parts < b.parts⟩

instance : LE BundleKey := ⟨fun a b => partsBefore a.parts b.parts⟩

instance : DecidableLT BundleKey := fun a b => inferInstanceAs (Decidable (a.parts < b.parts))

instance : Std.IsLinearOrder BundleKey := by
  apply Std.IsLinearOrder.of_le
  case le_antisymm =>
    exact ⟨fun a b h h' => parts_injective (@Std.le_antisymm (List String) List.instLE _ _ _ h h')⟩
  case le_trans => exact ⟨fun {_ _ _} h h' => @Std.le_trans (List String) List.instLE _ _ _ _ h h'⟩
  case le_total => exact ⟨fun _ _ => @Std.le_total (List String) List.instLE _ _ _⟩

instance : Std.LawfulOrderLT BundleKey where
  lt_iff a b := @Std.LawfulOrderLT.lt_iff (List String) _ List.instLE _ a.parts b.parts

/-- The bundle that a path belongs to: the two segments after the root, and the stem. -/
def ofPath? (p : KeyPath) (root : String) : Option BundleKey :=
  match p.after [root] with
  | service :: domain :: _ :: _ =>
    if Text.blank service || Text.blank domain then none
    else p.stem.map fun name => ⟨service, domain, name⟩
  | _ => none

/-- The key as a path. -/
def text (k : BundleKey) : String := "/".intercalate k.parts

end BundleKey

/-- A complete bundle: the record chosen for each role, in the order of the roles. -/
structure Bundle where
  key : BundleKey
  roles : List (String × Record)
  deriving DecidableEq

namespace Bundle

/-- The digest of the key and of the records' digests. -/
def digest (b : Bundle) : Digest :=
  Digest.ofFields (b.key.parts.map Utf8.encode ++ b.roles.map fun r => r.2.digest.bytes)

/-- The latest modification of a record, if any has one. -/
def modified (b : Bundle) : Option Timestamp :=
  b.roles.foldl (fun m r => Timestamp.latest m r.2.modified) none

/-- The record chosen for a role. -/
def role? (b : Bundle) (role : String) : Option Record :=
  (b.roles.find? fun r => r.1 = role).map Prod.snd

/-- The record with the properties. -/
def properties (b : Bundle) : Option Record := b.role? "json"

/-- The record with the private key. -/
def privateKey (b : Bundle) : Option Record := b.role? "key"

/-- The record with the certificate chain. -/
def certificate (b : Bundle) : Option Record := b.role? "crt"

/-- The properties as JSON, if they are. -/
def propertiesJson (b : Bundle) : Option Json := b.properties.bind fun r => Json.parse? r.value

/-- The values of a property: the items of an array, nothing for `null`, or the one value. -/
def propertyValues (b : Bundle) (name : String) : List Json :=
  match b.propertiesJson.bind (Json.member? name) with
  | some (.array items) => items
  | some .null => []
  | some v => [v]
  | none => []

/-- The first alternative name that is a text and not blank. -/
def sans (b : Bundle) : Option String :=
  (b.propertyValues "sans").findSome? fun v => v.text?.bind KeyPath.unlessBlank

/-- The members of an object that has some. -/
def membersOf? : Json → Option (List (String × Json))
  | .object (m :: rest) => some (m :: rest)
  | _ => none

/-- The members of the first issuer description that is an object with members. -/
def issuerData (b : Bundle) : Option (List (String × Json)) :=
  (b.propertyValues "issuer_data").findSome? membersOf?

end Bundle
end CertWatch
