import CoapNode.Credential.Keystore

set_option autoImplicit false

/-! # What a key store answers

A key store asks its source, and the source goes through its table. What comes out of this is
described without either: a table has some credentials for a peer (`PskTable.credentialsFor`), a
request resolves to an identity or a key among them (`resolve`), and that is put into the buffer or
refused (`deliver`). Every lookup is these three steps (`Keystore.lookup_resolved`), so no entry for
another peer has a part in it, and nothing is written unless the lookup succeeds.
-/

namespace CoapNode

/-! ## Credentials for a peer -/

/-- A pre-shared key and the identity that it goes by. -/
structure Credential where
  identity : Bytes
  key : Bytes
deriving DecidableEq, Repr

/-- **Is this an entry for a peer?** It is in pre-shared key mode, and its text names the peer: the
address, the port and the security. -/
def PskEntry.Serves (entry : PskEntry) (peer : Endpoint) : Prop :=
  entry.mode = .psk ∧ entry.serverUri ≠ "" ∧ Endpoint.parse entry.serverUri = .ok peer

instance (result : Except Endpoint.ParseError Endpoint) (peer : Endpoint) :
    Decidable (result = .ok peer) :=
  match result with
  | .ok server => decidable_of_iff (server = peer) ⟨congrArg Except.ok, Except.ok.inj⟩
  | .error _ => .isFalse nofun

instance (entry : PskEntry) (peer : Endpoint) : Decidable (entry.Serves peer) :=
  inferInstanceAs (Decidable (_ ∧ _ ∧ _))

/-- What an entry holds. -/
def PskEntry.credential (entry : PskEntry) : Credential := ⟨entry.identity, entry.key⟩

/-- The credentials of a table for a peer, in the order in which they were added. -/
def PskTable.credentialsFor (table : PskTable) (peer : Endpoint) : List Credential :=
  (table.entries.filter (·.Serves peer)).map (·.credential)

/-- The well-known credential. -/
def DefaultPsk.credential : Credential := ⟨identity, key⟩

/-! ## What a request resolves to -/

/-- **The answer to a request** from the credentials for a peer. The identity is that of the first
one, and the key is that of the first one with the given identity. An empty identity or key is no
answer, and nothing has an empty identity. -/
def resolve (credentials : List Credential) : CredentialRequest → Except CredentialError Bytes
  | .identity _ =>
    match credentials.head? with
    | some credential =>
      if credential.identity = [] then .error .noIdentity else .ok credential.identity
    | none => .error .noIdentity
  | .key identity =>
    if identity = [] then .error .unknownIdentity
    else
      match credentials.find? (·.identity = identity) with
      | some credential =>
        if credential.key = [] then .error .unknownIdentity else .ok credential.key
      | none => .error .unknownIdentity

/-- **An answer in a buffer.** It is put to the front if it fits, with its length as the result, and
all else leaves the buffer as it is. -/
def deliver (buffer : Bytes) :
    Except CredentialError Bytes → Except CredentialError Nat × Bytes
  | .ok answer =>
    if answer.length ≤ buffer.length then
      (.ok answer.length, answer ++ buffer.drop answer.length)
    else (.error (.bufferTooSmall answer.length buffer.length), buffer)
  | .error e => (.error e, buffer)

/-! ## Searching a table -/

theorem PskEntry.value_isFor (entry : PskEntry) (peer : Endpoint) :
    (entry.isFor peer).value = decide (entry.Serves peer) := by
  unfold isFor
  split
  · next hunusable =>
      refine (decide_eq_false fun hserves => ?_).symm
      rcases hunusable with hempty | hmode
      · exact hserves.2.1 hempty
      · exact hmode hserves.1
  · next husable =>
      obtain ⟨huri, hmode⟩ := not_or.1 husable
      split
      · next server hparse =>
          refine decide_eq_decide.2 ⟨?_, fun hserves => ?_⟩
          · rintro rfl
            exact ⟨Decidable.not_not.1 hmode, huri, hparse⟩
          · exact Except.ok.inj (hparse.symm.trans hserves.2.2)
      · next e hparse =>
          refine (decide_eq_false fun hserves => ?_).symm
          rw [hserves.2.2] at hparse
          cases hparse

/-- **The entry that is found** is the first one with the identity among those for the peer. -/
theorem value_findEntry (peer : Endpoint) (identity : Option Bytes) (entries : List PskEntry) :
    (findEntry peer identity entries).value
      = (entries.filter (·.Serves peer)).find? (·.hasIdentity identity) := by
  induction entries with
  | nil => rfl
  | cons entry rest ih =>
      unfold findEntry
      rw [Traced.value_bind, entry.value_isFor peer]
      -- an entry for another peer is passed over on both sides, whatever its identity is
      by_cases hserves : entry.Serves peer
      · rw [decide_eq_true hserves, Bool.true_and, List.filter_cons,
          if_pos (decide_eq_true hserves), List.find?_cons, ← ih]
        cases entry.hasIdentity identity <;> rfl
      · rw [decide_eq_false hserves, Bool.false_and, List.filter_cons,
          if_neg (ne_true_of_eq_false (decide_eq_false hserves)), ← ih]
        rfl

/-! ## Asking a source -/

/-- What is known about the key for a peer, once one who has some credentials was asked: the
identity of the first one, or else the key of the first one with the identity that is there. -/
def PskInfo.filledFrom (info : PskInfo) (credentials : List Credential) : PskInfo :=
  match info.identity? with
  | none =>
    match credentials.head? with
    | some credential => { info with identity := some credential.identity }
    | none => info
  | some identity =>
    match credentials.find? (·.identity = identity) with
    | some credential =>
      if credential.key = [] then info else { info with key := some credential.key }
    | none => info

/-- Are these the credentials of a source for a peer? -/
def CredentialSource.Has (source : CredentialSource) (peer : Endpoint)
    (credentials : List Credential) : Prop :=
  ∀ info, (source.resolve peer info).value.2 = info.filledFrom credentials

theorem PskTable.has_credentialsFor (table : PskTable) (peer : Endpoint) :
    table.source.Has peer (table.credentialsFor peer) := by
  intro info
  have hfind := value_findEntry peer info.identity? table.entries
  simp only [source, Traced.value_bind, hfind, PskInfo.filledFrom, credentialsFor]
  cases info.identity? with
  | none => cases table.entries.filter (·.Serves peer) <;> rfl
  | some identity =>
      have hcredential : ∀ entry : PskEntry,
          entry.hasIdentity (some identity) = decide (entry.credential.identity = identity) :=
        fun entry => decide_eq_decide.2 eq_comm
      dsimp only
      rw [List.find?_map]
      simp only [hcredential, Function.comp_def]
      cases (table.entries.filter (·.Serves peer)).find? (·.credential.identity = identity) with
      | none => rfl
      | some entry =>
          dsimp only [Option.map_some, PskEntry.credential]
          split <;> rfl

theorem DefaultPsk.has_credential (peer : Endpoint) :
    DefaultPsk.source.Has peer [DefaultPsk.credential] := by
  intro info
  simp only [source, PskInfo.filledFrom]
  cases info.identity? with
  | none => rfl
  | some id =>
      dsimp only
      rw [List.find?_singleton]
      by_cases hid : id = identity
      · subst hid
        rfl
      · have hother : ¬credential.identity = id := fun h => hid h.symm
        rw [if_neg hid, if_neg (by simpa using hother)]
        rfl

/-- **A source answers from its credentials for the peer**, whatever the hint is. -/
theorem Keystore.value_ask {source : CredentialSource} {peer : Endpoint}
    {credentials : List Credential} (h : source.Has peer credentials)
    (request : CredentialRequest) :
    (Keystore.ask source peer request).value = resolve credentials request := by
  cases request with
  | identity hint =>
      have hasked := h { hint := hint.filter (· ≠ []) }
      simp only [ask, Traced.value_bind, hasked, resolve, PskInfo.filledFrom, PskInfo.identity?,
        Option.filter_none]
      cases credentials with
      | nil => rfl
      | cons credential rest =>
          by_cases hempty : credential.identity = [] <;> simp [hempty, Option.filter]
  | key identity =>
      have hasked := h { identity := some identity }
      simp only [ask, Traced.value_bind, hasked, resolve, PskInfo.filledFrom, PskInfo.identity?]
      by_cases hempty : identity = []
      · -- an empty identity asks for one instead, so there is no key
        subst hempty
        cases credentials <;> rfl
      · have hidentity : (some identity).filter (· ≠ []) = some identity := by
          simp [Option.filter, hempty]
        rw [hidentity, if_neg hempty]
        dsimp only
        cases credentials.find? (·.identity = identity) with
        | none => rfl
        | some credential =>
            by_cases hkey : credential.key = [] <;> simp [hkey, Option.filter]

/-! ## Looking up -/

namespace Keystore

theorem value_fill (peer : Endpoint) (answer buffer : Bytes) :
    (fill peer answer buffer).value = deliver buffer (.ok answer) := by
  rw [fill, deliver]
  by_cases hlong : buffer.length < answer.length
  · rw [if_pos hlong, if_neg (Nat.not_le.2 hlong)]
    rfl
  · rw [if_neg hlong, if_pos (Nat.not_lt.1 hlong)]
    rfl

variable {keys : Keystore} {source : CredentialSource} {peer : Endpoint}
  {credentials : List Credential}

theorem value_lookup (hsource : keys.source? = some source) (h : source.Has peer credentials)
    (request : CredentialRequest) (buffer : Bytes) :
    (keys.lookup peer request buffer).value = deliver buffer (resolve credentials request) := by
  rw [lookup, hsource]
  simp only [Traced.value_bind, value_ask h]
  cases resolve credentials request with
  | ok answer => exact value_fill peer answer buffer
  | error e => rfl

/-- **A lookup resolves the request among the credentials for the peer.** With a table as its source
these are the identities and keys of the entries that serve the peer, in the order in which they
were added, and all else in the table makes no difference. Without a source it is the well-known
credential, for every peer, if that may be used, and else there is no answer. An answer goes to the
front of the buffer, whole, or the buffer stays as it is. -/
theorem lookup_resolved (peer : Endpoint) (request : CredentialRequest) (buffer : Bytes) :
    (∀ (table : PskTable) (defaultPsk : Bool),
        (lookup ⟨some table.source, defaultPsk⟩ peer request buffer).value
          = deliver buffer (resolve (table.credentialsFor peer) request))
      ∧ (lookup ⟨none, true⟩ peer request buffer).value
        = deliver buffer (resolve [DefaultPsk.credential] request)
      ∧ (lookup ⟨none, false⟩ peer request buffer).value = (.error .noKeystore, buffer) := by
  refine ⟨fun table defaultPsk => ?_, ?_, rfl⟩
  · exact value_lookup rfl (table.has_credentialsFor peer) request buffer
  · exact value_lookup rfl (DefaultPsk.has_credential peer) request buffer

end Keystore

end CoapNode
