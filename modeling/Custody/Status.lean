namespace Custody

/-!
# Status codes of the host

Host entries that can fail report a status: zero for success, anything else for a failure.
The library reports its own failures to the host in the same codes.
-/

namespace Status

/-- Success. -/
def noError : Int := 0

/-- The host produced no container although it reported success. -/
def memoryError : Int := 5

/-- A call that cannot be carried out. -/
def functionError : Int := 6

/-- The host speaks another version of the tables. -/
def versionError : Int := 7

/-- The name of a status code; codes that have none share `UnknownError`. -/
def name (code : Int) : String :=
  match code with
  | 0 => "NoError"
  | 1 => "TypeError"
  | 2 => "RankError"
  | 3 => "DimensionsError"
  | 4 => "NumericalError"
  | 5 => "MemoryError"
  | 6 => "FunctionError"
  | 7 => "VersionError"
  | _ => "UnknownError"

end Status

end Custody
