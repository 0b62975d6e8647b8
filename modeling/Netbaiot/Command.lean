import Netbaiot.Protocol

/-!
# Device commands

A command names a device and carries a caller-chosen identity; its dispatch is the receipt
the caller gets back.
-/

namespace Netbaiot

/-- A 128-bit command identity. -/
structure CommandId where
  uuid : BitVec 128
deriving DecidableEq

/-- A command for a device, with what it asks the device to do. -/
structure DeviceCommand (Payload : Type) where
  commandId : CommandId
  device : DeviceKey
  expiresAt : Option Int64
  payload : Payload

/-- How far a command has come on its way to the device. -/
inductive DeliveryState where
  | queued
  | dispatching
  | sent
  | received
  | failed
  | expired
deriving DecidableEq

/-- The receipt of a command. -/
structure CommandDispatch where
  commandId : CommandId
  state : DeliveryState
deriving DecidableEq

end Netbaiot
