import Rulebook.Settings.Endpoint

/-!
# Who may listen where

A machine lets a program listen at an endpoint if the port is not one of those that are reserved,
and if the address is one of its own. Port zero stands for any port that is free.
-/

namespace Rulebook.Settings

/-- Whether every machine has an address: the one of no particular host, or one that leads back to
the machine itself. -/
def HostAddress.isEverywhere : HostAddress → Bool
  | .v4 value => value == 0 || value >>> 24 == 127
  | .v6 groups _ => groups == [0, 0, 0, 0, 0, 0, 0, 0] || groups == [0, 0, 0, 0, 0, 0, 0, 1]

/-- The ports below this one are reserved. -/
def firstFreePort : UInt16 := 1024

/-- **Whether a program without privileges may listen at an endpoint**, on a machine that has only
the addresses that every machine has. -/
def Endpoint.listen (endpoint : Endpoint) : Except IoFault Unit :=
  if 0 < endpoint.port && endpoint.port < firstFreePort then throw .permissionDenied
  else if endpoint.host.isEverywhere then pure ()
  else throw .addressNotAvailable

end Rulebook.Settings
