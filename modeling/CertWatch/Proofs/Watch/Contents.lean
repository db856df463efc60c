import CertWatch.Proofs.Watch.Reading

/-!
# What equal digests mean

The digest of a record covers its key and its value. The digest of a bundle covers its key and the
digests of its records, which are fields like any other, so it covers the keys and the values of the
records too: framing tells fields apart on both levels, as long as the hash tells messages apart.
-/

namespace CertWatch
set_option autoImplicit false

namespace Record

variable {r s : Record} {hashed : List (List Bytes)}

/-- Digests of records that the hash tells apart are equal exactly if the keys and the values are. -/
theorem digest_eq_iff (digested : r.Digested) (digested' : s.Digested) (tells : Digest.Distinguishes hashed)
    (among : r.fields ∈ hashed) (among' : s.fields ∈ hashed) :
    r.digest = s.digest ↔ r.key = s.key ∧ r.value = s.value := by
  constructor
  · intro same
    rw [digested, digested'] at same
    exact eq_of_fields (tells.eq_of_ofFields among among' same)
  · rintro ⟨keys, values⟩
    exact digest_eq digested digested' keys values

end Record

/-- The parts of a bundle key are told apart by their bytes. -/
theorem BundleKey.eq_of_encoded {k l : BundleKey} (same : k.parts.map Utf8.encode = l.parts.map Utf8.encode) :
    k = l :=
  parts_injective (List.map_injective_iff.2 (fun _ _ => Utf8.encode_inj) same)

namespace Bundle

/-- The lists of fields that the digests in a bundle cover, its own and those of its records. -/
def hashed (b : Bundle) : List (List Bytes) := b.fields :: b.roles.map fun r => r.2.fields

variable {b c : Bundle}

/-- Digests of bundles that the hash tells apart are equal exactly if the keys of the bundles are, and the
keys and the values of the records one by one. -/
theorem digest_eq_iff (digested : ∀ r ∈ b.roles, r.2.Digested) (digested' : ∀ r ∈ c.roles, r.2.Digested)
    (tells : Digest.Distinguishes (b.hashed ++ c.hashed)) :
    b.digest = c.digest ↔ b.key = c.key ∧ b.contents = c.contents := by
  constructor
  · intro same
    have fields : b.fields = c.fields :=
      tells.eq_of_ofFields (List.mem_append_left _ List.mem_cons_self)
        (List.mem_append_right _ List.mem_cons_self) same
    obtain ⟨parts, digests⟩ := List.append_inj fields (by simp [BundleKey.parts])
    refine ⟨BundleKey.eq_of_encoded parts, map_eq_of_map_eq digests fun r hr s hs digest => ?_⟩
    have among : r.2.fields ∈ b.hashed ++ c.hashed :=
      List.mem_append_left _ (List.mem_cons_of_mem _ (List.mem_map_of_mem hr))
    have among' : s.2.fields ∈ b.hashed ++ c.hashed :=
      List.mem_append_right _ (List.mem_cons_of_mem _ (List.mem_map_of_mem hs))
    exact Prod.ext_iff.2 ((Record.digest_eq_iff (digested r hr) (digested' s hs) tells among among').1
      (Digest.eq_of_bytes digest))
  · rintro ⟨keys, contents⟩
    exact digest_eq digested digested' keys contents

end Bundle

namespace Digest

/-- **Framing.** The bytes that are hashed for two lists of fields are the same exactly if the lists are, as
long as the length of each field fits into eight bytes. So if the hash tells apart the messages in question:
two records, such as are read of keys, have the same digest exactly if they have the same key and the same
value, and two bundles of such records exactly if they agree in service, domain and name and in the keys and
the values of their records in the order of the roles. -/
theorem framing_exact :
    (∀ as bs : List Bytes, (∀ a ∈ as, a.length < 2 ^ 64) → (∀ b ∈ bs, b.length < 2 ^ 64) →
      (message as = message bs ↔ as = bs)) ∧
    (∀ (f : Fetched) (key : String), (f.record key).Digested) ∧
    (∀ r s : Record, r.Digested → s.Digested → Distinguishes [r.fields, s.fields] →
      (r.digest = s.digest ↔ r.key = s.key ∧ r.value = s.value)) ∧
    (∀ b c : Bundle, (∀ r ∈ b.roles, r.2.Digested) → (∀ r ∈ c.roles, r.2.Digested) →
      Distinguishes (b.hashed ++ c.hashed) →
      (b.digest = c.digest ↔
        (b.key.service = c.key.service ∧ b.key.domain = c.key.domain ∧ b.key.name = c.key.name) ∧
          b.contents = c.contents)) := by
  refine ⟨fun as bs fits fits' => ⟨message_inj fits fits', congrArg message⟩, fun f key => rfl, ?_, ?_⟩
  · intro r s digested digested' tells
    exact Record.digest_eq_iff digested digested' tells List.mem_cons_self
      (List.mem_cons_of_mem _ List.mem_cons_self)
  · intro b c digested digested' tells
    rw [Bundle.digest_eq_iff digested digested' tells]
    refine and_congr_left fun _ => ⟨fun same => by simp [same], ?_⟩
    rintro ⟨service, domain, name⟩
    exact BundleKey.parts_injective (by simp [BundleKey.parts, service, domain, name])

/-- A record with a value, of which nothing else matters. -/
def holding (key : String) (value : Bytes) : Record := .ofEnvelope key [] { value }

theorem digested_holding (key : String) (value : Bytes) : (holding key value).Digested := rfl

/-- An empty field before another is not one field that looks like a length and what follows it. A record is not
another one whose key has taken a byte from its value, and neither are the bundles with nothing but
these records. -/
theorem framing_exact_of_shifted_byte :
    let shifted (key : String) (value : Bytes) : Bundle := ⟨⟨"s", "d", "n"⟩, [("crt", holding key value)]⟩
    message [[], [1]] ≠ message [Bytes.littleEndian 8 1 ++ [1]] ∧
      (holding "k" [65, 66]).digest ≠ (holding "kA" [66]).digest ∧
      (shifted "k" [65, 66]).digest ≠ (shifted "kA" [66]).digest := by
  intro shifted
  obtain ⟨framed, -, records, bundles⟩ := framing_exact
  have tells : Distinguishes ((shifted "k" [65, 66]).hashed ++ (shifted "kA" [66]).hashed) :=
    ⟨by decide +kernel, by decide +kernel⟩
  have part : Distinguishes [(holding "k" [65, 66]).fields, (holding "kA" [66]).fields] :=
    ⟨by decide +kernel, by decide +kernel⟩
  have digested : ∀ key value, ∀ r ∈ (shifted key value).roles, r.2.Digested := fun key value r hr =>
    List.mem_singleton.1 hr ▸ digested_holding key value
  refine ⟨fun same => ?_, fun same => ?_, fun same => ?_⟩
  · exact absurd ((framed _ _ (by decide) (by decide)).1 same) (by decide)
  · exact absurd ((records _ _ (digested_holding _ _) (digested_holding _ _) part).1 same).1 (by decide)
  · exact absurd ((bundles _ _ (digested _ _) (digested _ _) tells).1 same).2 (by decide)

end Digest
end CertWatch
