import Uplink.Json.Record

/-!
# Devices

Where a stream of bytes comes from and goes to: a character device, which may be read under one path
and written under another, or a port of a host.
-/

namespace Uplink
namespace Device

/-- The names on a path, without empty names and names that stand for the place itself.  The latter
counts where a path starts with it. -/
def pathParts (path : String) : List (List Char) :=
  let names := path.toList.splitOn '/'
  let proper := names.filter fun name => !name.isEmpty && name != ['.']
  match names with
  | ['.'] :: _ => ['.'] :: proper
  | _ => proper

/-- Whether a path starts at the root. -/
def isRooted (path : String) : Bool :=
  path.toList.head? = some '/'

/-- Whether two paths lead the same way, name by name. -/
def samePath (p q : String) : Bool :=
  isRooted p = isRooted q && pathParts p = pathParts q

/-- A character device. -/
structure Serial where
  /-- The path that is read. -/
  inFile : String
  /-- The path that is written. -/
  outFile : String
  deriving DecidableEq, Repr, Inhabited

namespace Serial

/-- How the device is called in messages. -/
def describe (device : Serial) : String :=
  if samePath device.inFile device.outFile then device.inFile
  else device.inFile ++ " -> " ++ device.outFile

/-- The device as JSON. -/
def toJson (device : Serial) : Json :=
  .object [("inFile", .string device.inFile), ("outFile", .string device.outFile)]

/-- The device that a JSON value denotes. -/
def ofJson? (json : Json) : Option Serial := do
  let record ← Json.record? ["inFile", "outFile"] json
  let inFile ← record.require "inFile" Json.asString?
  let outFile ← record.require "outFile" Json.asString?
  return { inFile, outFile }

end Serial

/-- A port of a host, reached over a connection. -/
structure Telnet where
  /-- The host. -/
  address : String
  /-- The port. -/
  port : UInt16
  deriving DecidableEq, Repr, Inhabited

namespace Telnet

/-- How the device is called in messages. -/
def describe (device : Telnet) : String :=
  device.address ++ ":" ++ toString device.port.toNat

/-- The device as JSON. -/
def toJson (device : Telnet) : Json :=
  .object [("telnetAddress", .string device.address), ("telnetPort", .nat device.port.toNat)]

/-- The device that a JSON value denotes. -/
def ofJson? (json : Json) : Option Telnet := do
  let record ← Json.record? ["telnetAddress", "telnetPort"] json
  let address ← record.require "telnetAddress" Json.asString?
  let port ← record.require "telnetPort" Json.asUInt16?
  return { address, port }

end Telnet
end Device
end Uplink
