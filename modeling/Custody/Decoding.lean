import Custody.Error
import Custody.Ownership

namespace Custody

/-!
# Decoding what a host or a caller wrote

* `HostCode.decode` -- the member of an enumeration that a code stands for.
* `PassingMode.parse` -- the passing mode that a word stands for.
* `Status.check` -- success, or the error that the caller makes of a status.
-/

/-- The member that a code stands for; any other code is an invalid argument. -/
def HostCode.decode (α : Type) [HostCode α] (n : Int) : Except Error α :=
  match (HostCode.ofCode? n : Option α) with
  | some a => .ok a
  | none => .error (.invalidArgument (.unknownCode (HostCode.subject α) n))

/-- The passing mode that a word stands for.  Words are matched exactly. -/
def PassingMode.parse (text : String) : Except Error PassingMode :=
  match PassingMode.ofName? text with
  | some mode => .ok mode
  | none => .error (.unknownPassingMode text)

/-- Nothing for a status of success, and the error built from any other status. -/
def Status.check (code : Int) (failure : Int → Error) : Except Error Unit :=
  if code = Status.noError then .ok () else .error (failure code)

end Custody
