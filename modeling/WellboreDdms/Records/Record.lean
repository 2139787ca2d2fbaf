import WellboreDdms.Sessions.Session

/-!
# Records

The OSDU record as the service handles it, and the exceptions its handlers meet.
-/

namespace WellboreDdms

open Python

/-- `odes_storage.models.Record`. `rest` holds the fields the service only passes on:
`acl`, `legal`, `ancestry`, `meta`, `tags` and so on. -/
structure Record where
  id : Option String
  kind : String
  data : Dict String Value
  version : Option Int := none
  rest : Dict String Value := []

/-- An exception on its way out of a handler. `typeError` stands for an operation
that the type of a value does not have (`AttributeError`, `TypeError`), `other` for
the exceptions of third parties. -/
inductive Raised where
  | httpException (status : Nat) (detail : String)
  | valueError (message : String)
  | typeError
  | keyError (key : String)
  | runtimeError (message : String)
  | unexpectedResponse (status : Nat)
  | session (e : SessionError)
  | bulkError (status : Nat) (message : String)
  | other (name : String)
  deriving DecidableEq

end WellboreDdms
