import CortexDis.Values

/-!
The two message envelopes, as their models hold them after validation.
-/

namespace CortexDis.Envelope

open CortexDis.Values

/-- One `ingress.ready` message. -/
structure IngressReadyEvent where
  traceId : Uuid
  tenantId : Uuid
  storeId : Uuid
  sourceId : String
  templateId : Uuid
  bronzeRef : Uuid
  gcsUri : String
  receivedTs : Timestamp
  delimiter : Char
  tenantDisplayCode : Option String
  storeCode : Option String
  replay : Bool
  parentTraceId : Option Uuid
  deriving DecidableEq, Repr

/-- One `csv.received` message. -/
structure CsvReceivedEvent where
  traceId : Uuid
  tenantId : Uuid
  storeId : Uuid
  sourceId : String
  templateId : Uuid
  uploadSessionId : String
  gcsUri : String
  receivedTs : Timestamp
  delimiter : Char
  tenantDisplayCode : Option String
  storeCode : Option String
  deriving DecidableEq, Repr

end CortexDis.Envelope
