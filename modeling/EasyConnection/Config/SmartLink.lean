import Mathlib.Data.List.Basic

/-! # Smart Config links

What a Smart Config link decodes to. Each host says in its flag whether it serves the list of
zones, and over which schemes.
-/
namespace EasyConnection.Config

structure RocketSmartHost where
  host : String
  port : UInt16
  flag : UInt8
  delay : UInt16
  deriving DecidableEq, Repr

structure RocketSmartConfig where
  username : String
  password : String
  path : String
  hosts : List RocketSmartHost
  deriving DecidableEq, Repr

/-- The hosts that serve zones, with whether over HTTPS. -/
def RocketSmartConfig.zoneHosts (smart : RocketSmartConfig) : List (RocketSmartHost × Bool) :=
  smart.hosts.flatMap fun host =>
    (if host.flag &&& 0x11 = 0x11 then [(host, false)] else []) ++
      if host.flag &&& 0x12 = 0x12 then [(host, true)] else []

end EasyConnection.Config

namespace EasyConnection.Sample

def smart : Config.RocketSmartConfig := ⟨"u", "p", "/", [⟨"h", 80, 0x11, 0⟩]⟩

/-- A link with that configuration. -/
def smartLink : String :=
  "https://h/i/BgGq+xfh+dbMg0kJF+X90APTCHwU4Gg0JUML3N5wbXGx4v985nButADRO9+H5P3VA9MN3Jk="

end EasyConnection.Sample
