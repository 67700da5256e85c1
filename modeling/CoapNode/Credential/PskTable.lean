import CoapNode.Credential.Source
import CoapNode.Endpoint.Parser
import CoapNode.Text.Quoted
import CoapNode.Text.Record

set_option autoImplicit false

/-! # Tables of keys

A table holds security settings for servers, each named by the text of its endpoint. The
entries for a peer are those in pre-shared key mode whose text reads as that peer.
-/

namespace CoapNode

/-- How a server wants to be authenticated to. -/
inductive SecurityMode where
  /-- With a pre-shared key. -/
  | psk
  /-- With a raw public key. -/
  | rawPublicKey
  /-- With a certificate. -/
  | certificate
  /-- Not at all. -/
  | noSec
deriving DecidableEq, Repr

instance : Inhabited SecurityMode := ⟨.noSec⟩

/-- The settings for one server. -/
structure PskEntry where
  serverUri : String
  mode : SecurityMode
  identity : Bytes
  key : Bytes
deriving DecidableEq, Repr

namespace PskEntry

/-- Is this entry for a peer? An entry with a text that cannot be read is for nobody, which is
reported. -/
def isFor (entry : PskEntry) (peer : Endpoint) : Logged Bool :=
  if entry.serverUri = "" ∨ entry.mode ≠ .psk then pure false
  else
    match Endpoint.parse entry.serverUri with
    | .ok server => pure (server = peer)
    | .error e => do
      Log.debug ("skipping security entry with bad uri " ++ Text.quoted entry.serverUri ++ ": " ++
        e.text)
      pure false

/-- Does the entry have a given identity? Any identity will do if none is given. -/
def hasIdentity (entry : PskEntry) (identity : Option Bytes) : Bool :=
  identity.all (· = entry.identity)

end PskEntry

/-- The first entry for a peer with a given identity. -/
def findEntry (peer : Endpoint) (identity : Option Bytes) :
    List PskEntry → Logged (Option PskEntry)
  | [] => pure none
  | entry :: rest => do
    if (← entry.isFor peer) && entry.hasIdentity identity then pure (some entry)
    else findEntry peer identity rest

/-- A table with room for a number of entries. -/
structure PskTable where
  capacity : Nat
  entries : List PskEntry
deriving DecidableEq, Repr

namespace PskTable

/-- The table without entries. -/
def empty (capacity : Nat) : PskTable := ⟨capacity, []⟩

/-- Add an entry behind the others; it is given back if there is no room. -/
def add (table : PskTable) (entry : PskEntry) : Except PskEntry PskTable :=
  if table.entries.length < table.capacity then
    .ok { table with entries := table.entries ++ [entry] }
  else .error entry

/-- Add entries one after the other; yields for each of them whether it was given back. -/
def addAll (table : PskTable) : List PskEntry → PskTable × List (Except PskEntry Unit)
  | [] => (table, [])
  | entry :: rest =>
    match table.add entry with
    | .ok table =>
      let (table, results) := table.addAll rest
      (table, .ok () :: results)
    | .error entry =>
      let (table, results) := table.addAll rest
      (table, .error entry :: results)

/-- The table as a source of credentials. An entry without a key answers no question for one. -/
def source (table : PskTable) : CredentialSource where
  resolve peer info := do
    match ← findEntry peer info.identity? table.entries, info.identity? with
    | none, _ => pure (false, info)
    | some entry, none => pure (true, { info with identity := some entry.identity })
    | some entry, some _ =>
      if entry.key = [] then pure (false, info)
      else pure (true, { info with key := some entry.key })

end PskTable

end CoapNode
