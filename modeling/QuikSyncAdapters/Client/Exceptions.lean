import QuikSyncAdapters.Library.PyValue

/-! The exceptions that the adapters raise and catch. -/

namespace QuikSync.Client

open Py

inductive Exc where
  | builtin (e : Py.Error)
  -- `httpx.HTTPError`, raised for a transport failure
  | httpError (message : String)
  | authError (message : String)
  | quikSyncClientError (status : ℕ) (errorCode : Json) (body : Json)
  | quikSyncServerError (status : ℕ) (body : String)
  | quikSyncConnectionError (message : String)

/-- The classes that the fleet callbacks catch. -/
def Exc.isQuikSync : Exc → Bool
  | .quikSyncClientError .. | .quikSyncServerError .. | .quikSyncConnectionError _ => true
  | _ => false

end QuikSync.Client
