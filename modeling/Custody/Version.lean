namespace Custody.Version

/-!
# Versions

The version of the library's interface, and the version of the host tables it understands.
-/

/-- The first number of the interface version. -/
def major : Int := 0

/-- The second number of the interface version. -/
def minor : Int := 1

/-- The third number of the interface version. -/
def patch : Int := 0

/-- The interface version in full. -/
def api : String := s!"{major}.{minor}.{patch}"

/-- The layout of the host tables that the library understands. -/
def tables : Int := 1

/-- Whether code written for interface `wantedMajor.wantedMinor` works with this one: the first
    number has to agree, and the second must not be newer. -/
def isCompatible (wantedMajor wantedMinor : Int) : Bool :=
  wantedMajor == major && wantedMinor ≤ minor

end Custody.Version
