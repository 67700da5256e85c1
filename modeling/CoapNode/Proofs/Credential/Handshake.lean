import CoapNode.Proofs.Credential.Lookup

set_option autoImplicit false

/-! # The two lookups of a handshake

While it sets up a session a secure channel asks a key store twice: for the identity to present to
the peer, and then for the key that belongs to this identity. The first question goes to the first
entry for the peer, the second one to the first entry for the peer with that identity. No entry
before the first one is for the peer, so both questions are answered from the same entry
(`Keystore.key_of_presented`), whichever other entries have the identity as well.
-/

namespace CoapNode

/-! ## One entry for both questions -/

namespace PskTable

variable {table : PskTable} {peer : Endpoint} {credential : Credential} {rest : List Credential}

/-- **The entry that supplies the identity for a peer**: the first one in the table that is for the
peer. -/
def Supplies (table : PskTable) (peer : Endpoint) (entry : PskEntry) : Prop :=
  entry.Serves peer ∧ ∃ before after, table.entries = before ++ entry :: after
    ∧ ∀ other ∈ before, ¬other.Serves peer

theorem exists_supplies (h : table.credentialsFor peer = credential :: rest) :
    ∃ entry, table.Supplies peer entry ∧ entry.credential = credential := by
  obtain ⟨entry, others, hfilter, hcredential, -⟩ := List.map_eq_cons_iff.1 h
  obtain ⟨before, after, hentries, hbefore, hserves, -⟩ := List.filter_eq_cons_iff.1 hfilter
  refine ⟨entry, ⟨of_decide_eq_true hserves, before, after, hentries, ?_⟩, hcredential⟩
  intro other hother hserves'
  exact hbefore other hother (decide_eq_true hserves')

/-- Both searches through the table stop at the entry that supplies the identity. -/
theorem Supplies.value_findEntry {entry : PskEntry} (h : table.Supplies peer entry)
    {identity : Option Bytes} (hidentity : entry.hasIdentity identity = true) :
    (findEntry peer identity table.entries).value = some entry := by
  obtain ⟨hserves, before, after, hentries, hbefore⟩ := h
  have hnone : before.filter (·.Serves peer) = [] := by
    rw [List.filter_eq_nil_iff]
    intro other hother hserves'
    exact hbefore other hother (of_decide_eq_true hserves')
  rw [CoapNode.value_findEntry, hentries, List.filter_append, hnone, List.nil_append,
    List.filter_cons, if_pos (decide_eq_true hserves)]
  exact List.find?_cons_of_pos hidentity

end PskTable

/-! ## Main result -/

namespace Keystore

variable {keys : Keystore} {source : CredentialSource} {peer : Endpoint} {credential : Credential}
  {credentials rest : List Credential} {hint : Option Bytes} {buffer filled room : Bytes}
  {length : Nat}

/-- An identity that is presented is that of the first credential. -/
theorem exists_presented (hsource : keys.source? = some source) (h : source.Has peer credentials)
    (hpresented : (keys.lookup peer (.identity hint) buffer).value = (.ok length, filled)) :
    ∃ credential rest, credentials = credential :: rest ∧ credential.identity ≠ []
      ∧ filled.take length = credential.identity := by
  rw [value_lookup hsource h] at hpresented
  cases credentials with
  | nil => cases hpresented
  | cons credential rest =>
      simp only [resolve, List.head?_cons] at hpresented
      split at hpresented
      · cases hpresented
      · next hidentity =>
          rw [deliver] at hpresented
          split at hpresented
          · cases hpresented
            exact ⟨credential, rest, rfl, hidentity, List.take_left⟩
          · cases hpresented

/-- The key of the first credential is what its identity resolves to. -/
theorem value_lookup_key (hsource : keys.source? = some source)
    (h : source.Has peer (credential :: rest)) (hidentity : credential.identity ≠ [])
    (hroom : credential.key.length ≤ room.length) :
    (keys.lookup peer (.key credential.identity) room).value
      = if credential.key = [] then (.error .unknownIdentity, room)
        else (.ok credential.key.length, credential.key ++ room.drop credential.key.length) := by
  have hfind : (credential :: rest).find? (·.identity = credential.identity) = some credential :=
    List.find?_cons_of_pos (decide_eq_true rfl)
  rw [value_lookup hsource h, resolve, if_neg hidentity, hfind]
  dsimp only
  split
  · rfl
  · exact if_pos hroom

/-- **Identity and key belong together.** If a key store yields an identity to present to a peer,
with any hint, then the key that it yields to the same peer for this identity is that of the very
credential that supplied it, or there is none if that key is empty; the buffers must have room for
them. With a table as its source the credential is that of the first entry for the peer, and both
searches through the table find this entry, whatever other entries there are. Without a source it is
the well-known one, if that may be used, and else no identity is yielded. -/
theorem key_of_presented (peer : Endpoint) (hint : Option Bytes) (buffer : Bytes) :
    (∀ (table : PskTable) (defaultPsk : Bool) (length : Nat) (filled : Bytes),
        (lookup ⟨some table.source, defaultPsk⟩ peer (.identity hint) buffer).value
          = (.ok length, filled) →
        ∃ entry, table.Supplies peer entry
          ∧ (findEntry peer none table.entries).value = some entry
          ∧ filled.take length = entry.identity
          ∧ (findEntry peer (some (filled.take length)) table.entries).value = some entry
          ∧ ∀ room : Bytes, entry.key.length ≤ room.length →
            (lookup ⟨some table.source, defaultPsk⟩ peer (.key (filled.take length)) room).value
              = if entry.key = [] then (.error .unknownIdentity, room)
                else (.ok entry.key.length, entry.key ++ room.drop entry.key.length))
      ∧ (∀ (length : Nat) (filled : Bytes),
        (lookup ⟨none, true⟩ peer (.identity hint) buffer).value = (.ok length, filled) →
        filled.take length = DefaultPsk.identity
          ∧ ∀ room : Bytes, DefaultPsk.key.length ≤ room.length →
            (lookup ⟨none, true⟩ peer (.key (filled.take length)) room).value
              = (.ok DefaultPsk.key.length, DefaultPsk.key ++ room.drop DefaultPsk.key.length))
      ∧ ∀ (length : Nat) (filled : Bytes),
        (lookup ⟨none, false⟩ peer (.identity hint) buffer).value ≠ (.ok length, filled) := by
  refine ⟨fun table defaultPsk length filled hpresented => ?_,
    fun length filled hpresented => ?_, fun length filled => nofun⟩
  · have hsource : source? ⟨some table.source, defaultPsk⟩ = some table.source := rfl
    have hhas := table.has_credentialsFor peer
    obtain ⟨credential, rest, hcredentials, hidentity, htake⟩ :=
      exists_presented hsource hhas hpresented
    obtain ⟨entry, hsupplies, rfl⟩ := PskTable.exists_supplies hcredentials
    rw [hcredentials] at hhas
    rw [htake]
    exact ⟨entry, hsupplies, hsupplies.value_findEntry rfl, rfl,
      hsupplies.value_findEntry (decide_eq_true rfl),
      fun room hroom => value_lookup_key hsource hhas hidentity hroom⟩
  · have hsource : source? ⟨none, true⟩ = some DefaultPsk.source := rfl
    have hhas := DefaultPsk.has_credential peer
    obtain ⟨credential, rest, hcredentials, hidentity, htake⟩ :=
      exists_presented hsource hhas hpresented
    cases hcredentials
    rw [htake]
    exact ⟨rfl, fun room hroom => value_lookup_key hsource hhas hidentity hroom⟩

/-- The peer of the sample table, `coaps://[fd00::1]:5684`. -/
def sampleServer : Endpoint := ⟨⟨0xfd00, 0, 0, 0, 0, 0, 0, 1⟩, 5684, true⟩

/-- A table in which four entries have the same identity. The first one is not in pre-shared key
mode, and the second one is for another server. -/
def sampleShared : PskTable where
  capacity := 4
  entries := [⟨"coaps://[fd00::1]", .certificate, [0x6D, 0x65], [1]⟩,
    ⟨"coaps://[fd00::2]", .psk, [0x6D, 0x65], [2]⟩,
    ⟨"coaps://[fd00::1]", .psk, [0x6D, 0x65], [3, 3]⟩,
    ⟨"coaps://[fd00::1]:5684", .psk, [0x6D, 0x65], [4]⟩]

theorem key_of_presented_sampleShared :
    (lookup ⟨some sampleShared.source, false⟩ sampleServer (.identity none) [0, 0, 0, 0]).value
        = (.ok 2, [0x6D, 0x65, 0, 0])
      ∧ ∃ entry, sampleShared.Supplies sampleServer entry
        ∧ (findEntry sampleServer none sampleShared.entries).value = some entry
        ∧ ([0x6D, 0x65, 0, 0] : Bytes).take 2 = entry.identity
        ∧ (findEntry sampleServer (some ([0x6D, 0x65, 0, 0].take 2)) sampleShared.entries).value
          = some entry
        ∧ ∀ room : Bytes, entry.key.length ≤ room.length →
          (lookup ⟨some sampleShared.source, false⟩ sampleServer
              (.key ([0x6D, 0x65, 0, 0].take 2)) room).value
            = if entry.key = [] then (.error .unknownIdentity, room)
              else (.ok entry.key.length, entry.key ++ room.drop entry.key.length) := by
  have hpresented : (lookup ⟨some sampleShared.source, false⟩ sampleServer (.identity none)
      [0, 0, 0, 0]).value = (.ok 2, [0x6D, 0x65, 0, 0]) := rfl
  exact ⟨hpresented,
    (key_of_presented sampleServer none [0, 0, 0, 0]).1 sampleShared false _ _ hpresented⟩

end Keystore

end CoapNode
