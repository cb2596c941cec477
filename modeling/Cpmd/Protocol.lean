import Cpmd.Address

/-! The messages between a daemon and the resolve server, as the handlers see
them: by their fields. -/

set_option autoImplicit false

namespace Cpmd

/-- `alpha::NetAddress`. -/
structure NetAddress where
  ip : List UInt8
  port : Int32
deriving DecidableEq

/-- An enumeration with a fixed underlying type can hold any value of it. -/
inductive ResolveServerError where
  | kOk
  | kInvalidNode
  | kNodeNotFound
  | unknown (code : Int16)
deriving DecidableEq

inductive ResolveRequestType where
  | kInitializeSelf
  | kLookupNode
  | unknown (type : Int16)
deriving DecidableEq

inductive ResolveResponseType where
  | kUpdateSelf
  | kUpdateCache
  | unknown (type : Int16)
deriving DecidableEq

structure ResolveRequest where
  type : ResolveRequestType
  selfAddr : UInt32
  cpmdPort : Int32
  peerAddr : UInt32
deriving DecidableEq

/-- The strings are those read up to their first NUL. -/
structure ResolveResponse where
  code : ResolveServerError
  type : ResolveResponseType
  nodeAddr : UInt32
  nodePort : Int32
  nodeIp : List UInt8
  nodePath : List UInt8
deriving DecidableEq

/-- What the resolve server's connection may deliver to a daemon: a response, or
a message of another `MessageType`, whose data is not looked at. -/
inductive ResolveServerMessage where
  | kResolveResponse (response : ResolveResponse)
  | other (type : Int16)
deriving DecidableEq

end Cpmd
