import CoapNode.Endpoint.Basic
import CoapNode.Time.Retry

set_option autoImplicit false

/-! # Configuration

What the user of a node may choose, with the values that apply if nothing is chosen.
-/

namespace CoapNode

/-- The ports that a node listens on. -/
structure Ports where
  plain : UInt16 := Endpoint.defaultPort
  secure : UInt16 := Endpoint.defaultSecurePort
deriving DecidableEq, Repr

/-- How requests are retransmitted. -/
structure Con where
  /-- The delays before the peer has acknowledged the request. -/
  unacked : RetryStrategy := ⟨.doubling, 500, 1000⟩
  /-- The delays while the peer has acknowledged the request but not answered it. -/
  acked : RetryStrategy := ⟨.doubling, 1000, 2000⟩
  /-- How often a request may be sent. -/
  maxAttempts : UInt16 := 4
deriving DecidableEq, Repr

/-- The longer one of the times that the two strategies may take. -/
def Con.maxTransmitWait (con : Con) : Millis :=
  max (con.unacked.maxTime con.maxAttempts) (con.acked.maxTime con.maxAttempts)

/-- How representations are transferred in blocks. -/
structure BlockTransfer where
  /-- The size of blocks, rounded to a valid size where it is used. -/
  chunkSize : UInt16 := 64
  /-- How many blocks out of sequence make a transfer fail. -/
  maxErrors : UInt16 := 4
deriving DecidableEq, Repr

/-- The configuration of a node. -/
structure Config where
  ports : Ports := {}
  con : Con := {}
  block : BlockTransfer := {}
  /-- The bytes of a datagram beyond this number are lost. -/
  maxDatagramSize : UInt16 := 1152
  /-- Keeps nodes that boot at the same moment from using the same message ids. -/
  idSeed : UInt16 := 0
  /-- Whether the well-known key may be used while there is no source of credentials. -/
  defaultPsk : Bool := false
deriving DecidableEq, Repr

/-! ## As text -/

/-- A number of attempts as text. -/
def attemptsText (n : UInt16) : String := Text.tagged "Attempts" (toString n.toNat)

/-- The ports as text. -/
def Ports.text (ports : Ports) : String :=
  Text.record "Ports"
    [("plain", toString ports.plain.toNat), ("secure", toString ports.secure.toNat)]

/-- The retransmission settings as text. -/
def Con.text (con : Con) : String :=
  Text.record "Con"
    [("unacked_retry_strategy", con.unacked.text), ("acked_retry_strategy", con.acked.text),
     ("max_attempts", attemptsText con.maxAttempts)]

/-- The block settings as text. -/
def BlockTransfer.text (block : BlockTransfer) : String :=
  Text.record "BlockTransfer"
    [("chunk_size", toString block.chunkSize.toNat), ("max_errors", attemptsText block.maxErrors)]

/-- The configuration as text. -/
def Config.text (config : Config) : String :=
  Text.record "Config"
    [("ports", config.ports.text), ("con", config.con.text), ("block", config.block.text),
     ("max_datagram_size", toString config.maxDatagramSize.toNat),
     ("mid_seed", toString config.idSeed.toNat), ("default_psk", Text.bool config.defaultPsk)]

end CoapNode
