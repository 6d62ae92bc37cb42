import EdgeBridge.Foundation.Effect
import EdgeBridge.Payload

/-!
# The Odoo client

`odoo_client.py` over any behaviour of the remote side.  The methods are computations
on the client and the exchanges that it has had with Odoo, each one a call and its
answer.
-/

namespace EdgeBridge.Odoo

open Foundation

/-! ## The remote side -/

/-- An exception of a call, each with its `str(exc)` as `text`: an `xmlrpc.client.Fault`, a
`ProtocolError`, an `OSError` (which a timeout, a reset and an `SSLError` are), or any
other one. -/
inductive RemoteError where
  | fault (faultCode faultString text : Text)
  | protocolError (errcode errmsg text : Text)
  | osError (text : Text)
  | other (text : Text)
  deriving DecidableEq

/-- `xmlrpc.client.ServerProxy` refuses a scheme that it does not know, and raises a
`ValueError` on an address that cannot be split. -/
inductive ProxyFailure where
  | unsupported (text : Text)
  | malformed (text : Text)
  deriving DecidableEq

def ProxyFailure.error : ProxyFailure → RemoteError
  | .unsupported text => .osError text
  | .malformed text => .other text

inductive Call where
  | serverProxy (uri : Text)
  | version
  | authenticate (database username password : Text)
  | executeKw (database : Text) (uid : Option Int) (password model method : Text)
      (payload : List (Text × Text))
  deriving DecidableEq

structure Exchange where
  call : Call
  answer : Except RemoteError PyValue

/-- The remote side: what it answers may depend on everything before. -/
structure World where
  serverProxy : Text → Option ProxyFailure
  answer : List Exchange → Call → Except RemoteError PyValue
  now : List Exchange → Datetime

def World.respond (world : World) (past : List Exchange) :
    Call → Except RemoteError PyValue
  | .serverProxy uri =>
      match world.serverProxy uri with
      | none => .ok .none
      | some failure => .error failure.error
  | call => world.answer past call

/-! ## The client -/

structure OdooClientSettings where
  url : Text
  database : Text
  username : Text
  password : Text
  model : Text
  submitMethod : Text
  deriving DecidableEq

/-- `common` and `models` say whether the proxies are cached. -/
structure OdooXmlRpcClient where
  settings : OdooClientSettings
  uid : Option Int
  lastAuthenticatedAt : Option Datetime
  common : Bool
  models : Bool

def OdooXmlRpcClient.fromSettings (settings : OdooClientSettings) : OdooXmlRpcClient :=
  ⟨settings, none, none, false, false⟩

structure Session where
  client : OdooXmlRpcClient
  exchanges : List Exchange

inductive ClientError where
  | remote (error : RemoteError)
  | authentication (message : Text)
  | submission (message : Text)
  deriving DecidableEq

abbrev Client (α : Type) := Effect Session ClientError α

namespace OdooXmlRpcClient

def isAuthenticated (client : OdooXmlRpcClient) : Bool := client.uid.any (0 < ·)

def invalidateSession (client : OdooXmlRpcClient) : OdooXmlRpcClient :=
  { client with uid := none, lastAuthenticatedAt := none }

def close (client : OdooXmlRpcClient) : OdooXmlRpcClient :=
  { client with common := false, models := false }.invalidateSession

end OdooXmlRpcClient

def changeClient (f : OdooXmlRpcClient → OdooXmlRpcClient) : Client PUnit :=
  .change fun session => { session with client := f session.client }

/-- One call and its answer. -/
def request (world : World) (call : Call) : Client PyValue := fun session =>
  let answer := world.respond session.exchanges call
  (answer.mapError .remote,
    { session with exchanges := session.exchanges ++ [⟨call, answer⟩] })

def getCommonProxy (world : World) : Client PUnit := do
  let session ← Effect.read
  if session.client.common then pure ⟨⟩
  else do
    let _ ← request world (.serverProxy (session.client.settings.url ++ str "/xmlrpc/2/common"))
    changeClient fun client => { client with common := true }

def getModelsProxy (world : World) : Client PUnit := do
  let session ← Effect.read
  if session.client.models then pure ⟨⟩
  else do
    let _ ← request world (.serverProxy (session.client.settings.url ++ str "/xmlrpc/2/object"))
    changeClient fun client => { client with models := true }

/-- `_ODOO_TRANSPORT_ERRORS`; all of its classes but the first are `OSError`s. -/
def RemoteError.isTransport : RemoteError → Bool
  | .protocolError _ _ _ => true
  | .osError _ => true
  | _ => false

def RemoteError.text : RemoteError → Text
  | .fault _ _ text => text
  | .protocolError _ _ text => text
  | .osError text => text
  | .other text => text

/-- `except _ODOO_TRANSPORT_ERRORS` of `authenticate` and `check_readiness`. -/
def authenticationFailure {α : Type} (failure : Text) : ClientError → Client α
  | .remote error =>
      if error.isTransport then do
        changeClient .close
        Effect.raise (.authentication (failure ++ error.text))
      else Effect.raise (.remote error)
  | error => Effect.raise error

/-- `isinstance(uid, int) and uid > 0`; `True` is the integer 1. -/
def positiveInt : PyValue → Option Int
  | .int value => if 0 < value then some value else none
  | .bool true => some 1
  | _ => none

/-- `common.authenticate`. -/
def callAuthenticate (world : World) : Client PyValue := do
  getCommonProxy world
  let session ← Effect.read
  request world (.authenticate session.client.settings.database
    session.client.settings.username session.client.settings.password)

def authenticate (world : World) : Client Int := do
  let answer ← (callAuthenticate world).handle
    (authenticationFailure (str "Odoo authentication failed: "))
  match positiveInt answer with
  | none => do
      changeClient .close
      Effect.raise (.authentication (str "Odoo authentication failed: invalid UID"))
  | some uid => do
      let session ← Effect.read
      changeClient fun client =>
        { client with
          uid := some uid, lastAuthenticatedAt := some (world.now session.exchanges) }
      pure uid

/-- `revalidate_after_seconds`: whether it is positive, and the microseconds of its
`timedelta`, `none` where `float` or `timedelta` raises. -/
structure Seconds where
  positive : Bool
  delta : Option Nat

/-- Of the integer that the configuration gives. -/
def Seconds.ofInt (seconds : Int) : Seconds where
  positive := 0 < seconds
  delta := if seconds < 86400000000000 then some (seconds.toNat * 1000000) else none

def authenticationRevalidationDue (world : World) (revalidateAfterSeconds : Option Seconds) :
    Client Bool := do
  let session ← Effect.read
  match session.client.isAuthenticated, session.client.lastAuthenticatedAt,
    revalidateAfterSeconds with
  | false, _, _ => pure true
  | true, none, _ => pure true
  | true, some _, none => pure false
  | true, some last, some seconds =>
      if seconds.positive then
        match seconds.delta with
        | none => Effect.raise (.remote (.other (str "date value out of range")))
        | some delta => pure (decide (last.micro + delta ≤ (world.now session.exchanges).micro))
      else pure false

/-- `common.version`. -/
def callVersion (world : World) : Client PyValue := do
  getCommonProxy world
  request world .version

def revalidate (world : World) (revalidateAfterSeconds : Option Seconds) : Client Bool := do
  let due ← authenticationRevalidationDue world revalidateAfterSeconds
  if due then do
    let _ ← authenticate world
    pure true
  else pure true

/-- `isinstance(version, dict)`, and the revalidation. -/
def checkVersion (world : World) (revalidateAfterSeconds : Option Seconds) :
    PyValue → Client Bool
  | .dict _ => revalidate world revalidateAfterSeconds
  | _ => pure false

def checkReadiness (world : World) (revalidateAfterSeconds : Option Seconds) : Client Bool :=
  Effect.handle (do
      let version ← callVersion world
      checkVersion world revalidateAfterSeconds version)
    (authenticationFailure (str "Odoo readiness check failed: "))

def authenticationMarkers : List Text :=
  [str "access denied", str "authentication", str "session", str "login", str "password",
    str "uid"]

/-- `str.lower` on ASCII; no other letter has a lower case that occurs in a marker,
apart from the `i` with a dot of U+0130, which brings a combining dot along. -/
def lowerAscii (text : Text) : Text :=
  text.map fun c => if 65 ≤ c ∧ c ≤ 90 then c + 32 else c

def isAuthenticationFault (faultCode faultString : Text) : Bool :=
  authenticationMarkers.any fun marker =>
    decide (marker <:+: lowerAscii (faultCode ++ 32 :: faultString))

/-- The `except` clauses of `_submit_print_data`; `retry` is there when `allow_reauth`. -/
def submissionFailure (retry : Option (Client PyValue)) : ClientError → Client PyValue
  | .remote (.fault faultCode faultString text) =>
      match isAuthenticationFault faultCode faultString, retry with
      | true, some retry => retry
      | _, _ => Effect.raise (.submission (str "Odoo XML-RPC fault: " ++ text))
  | .remote (.protocolError errcode errmsg _) => do
      changeClient .close
      Effect.raise (.submission
        (str "Odoo XML-RPC protocol error: " ++ errcode ++ 32 :: errmsg))
  | .remote (.osError text) => do
      changeClient .close
      Effect.raise (.submission (str "Odoo XML-RPC transport error: " ++ text))
  | error => Effect.raise error

def ensureAuthenticated (world : World) : Client PUnit := do
  let session ← Effect.read
  if session.client.isAuthenticated then pure ⟨⟩
  else do
    let _ ← authenticate world
    pure ⟨⟩

/-- `models.execute_kw`. -/
def callExecuteKw (world : World) (payload : List (Text × Text)) : Client PyValue := do
  getModelsProxy world
  let session ← Effect.read
  request world (.executeKw session.client.settings.database session.client.uid
    session.client.settings.password session.client.settings.model
    session.client.settings.submitMethod payload)

/-- `_submit_print_data`. -/
def submitAttempt (world : World) (payload : List (Text × Text))
    (retry : Option (Client PyValue)) : Client PyValue := do
  ensureAuthenticated world
  (callExecuteKw world payload).handle (submissionFailure retry)

/-- The second attempt, after an authentication fault. -/
def submitAgain (world : World) (payload : List (Text × Text)) : Client PyValue := do
  changeClient .invalidateSession
  let _ ← authenticate world
  submitAttempt world payload none

/-- `except OdooAuthenticationError` of `submit_print_data`. -/
def asSubmissionError : ClientError → Client PyValue
  | .authentication message => Effect.raise (.submission message)
  | error => Effect.raise error

def submitPrintData (world : World) (payload : List (Text × Text)) : Client PyValue :=
  Effect.handle (submitAttempt world payload (some (submitAgain world payload)))
    asSubmissionError

/-- What `OdooQueueWorker.start` and `run_once` do with a failed authentication. -/
def authenticateOrLog (world : World) : Client PUnit :=
  Effect.handle (do
      let _ ← authenticate world
      pure ⟨⟩)
    fun
    | .authentication _ => pure ⟨⟩
    | error => Effect.raise error

end EdgeBridge.Odoo
