import EdgeBridge.Odoo.Client

/-!
# The error contract of the Odoo client

`authenticate` and `check_readiness` raise `OdooAuthenticationError` only, and
`submit_print_data` raises `OdooSubmissionError` only, as long as the common endpoint
answers no `Fault`: nothing on that path catches one.
-/

namespace EdgeBridge.Odoo

open Foundation

/-! ## Exchanges -/

def Call.isExecute : Call → Bool
  | .executeKw _ _ _ _ _ _ => true
  | _ => false

def Call.isAuthenticate : Call → Bool
  | .authenticate _ _ _ => true
  | _ => false

namespace Exchange

def isExecute (exchange : Exchange) : Bool := exchange.call.isExecute

/-- No clause of the client catches the answer: a fault is caught around `execute_kw`
only, and an exception of another class is caught nowhere. -/
def uncaught (exchange : Exchange) : Bool :=
  match exchange.answer with
  | .error (.fault _ _ _) => !exchange.isExecute
  | .error (.other _) => true
  | _ => false

/-- A successful authentication. -/
def authenticates (exchange : Exchange) : Bool :=
  exchange.call.isAuthenticate &&
    match exchange.answer with
    | .ok answer => (positiveInt answer).isSome
    | .error _ => false

/-- An answer that `_is_authentication_fault` recognizes. -/
def authenticationFault (exchange : Exchange) : Bool :=
  match exchange.answer with
  | .error (.fault faultCode faultString _) => isAuthenticationFault faultCode faultString
  | _ => false

end Exchange

/-- Only calls of the common endpoint and of the proxies, all of them handled. -/
def Quiet (made : List Exchange) : Prop :=
  ∀ exchange ∈ made, exchange.uncaught = false ∧ exchange.isExecute = false

/-- The same, up to an answer that nobody catches. -/
def Escaped (made : List Exchange) : Prop :=
  (∀ exchange ∈ made, exchange.isExecute = false) ∧ ∃ exchange ∈ made, exchange.uncaught = true

def Authenticated (made : List Exchange) : Prop :=
  Quiet made ∧ ∃ exchange ∈ made, exchange.authenticates = true

theorem Quiet.nil : Quiet [] := by simp [Quiet]

theorem Quiet.append {first second : List Exchange} (hfirst : Quiet first)
    (hsecond : Quiet second) : Quiet (first ++ second) := by
  intro exchange hmem
  exact (List.mem_append.mp hmem).elim (hfirst exchange) (hsecond exchange)

theorem Quiet.escaped {first second : List Exchange} (hfirst : Quiet first)
    (hsecond : Escaped second) : Escaped (first ++ second) := by
  obtain ⟨hexecute, exchange, hmem, huncaught⟩ := hsecond
  refine ⟨?_, exchange, List.mem_append_right _ hmem, huncaught⟩
  intro other hother
  exact (List.mem_append.mp hother).elim (fun h => (hfirst other h).2) (hexecute other)

theorem Quiet.not_escaped {made : List Exchange} (h : Quiet made) :
    ∀ exchange ∈ made, exchange.uncaught = false :=
  fun exchange hmem => (h exchange hmem).1

theorem Escaped.uncaught {made : List Exchange} (h : Escaped made) :
    ¬ ∀ exchange ∈ made, exchange.uncaught = false := by
  obtain ⟨-, exchange, hmem, huncaught⟩ := h
  intro hnone
  rw [hnone exchange hmem] at huncaught
  cases huncaught

/-- `P` holds of the exchanges since `past`. -/
def Since (past : List Exchange) (P : List Exchange → Prop) (session : Session) : Prop :=
  ∃ made, session.exchanges = past ++ made ∧ P made

theorem Since.imp {past : List Exchange} {P Q : List Exchange → Prop} {session : Session}
    (h : Since past P session) (hpq : ∀ made, P made → Q made) : Since past Q session := by
  obtain ⟨made, hmade, hp⟩ := h
  exact ⟨made, hmade, hpq made hp⟩

theorem Since.trans {past : List Exchange} {P Q R : List Exchange → Prop}
    {session after : Session} (h : Since past P session)
    (hafter : Since session.exchanges Q after)
    (happend : ∀ first second, P first → Q second → R (first ++ second)) :
    Since past R after := by
  obtain ⟨first, hfirst, hp⟩ := h
  obtain ⟨second, hsecond, hq⟩ := hafter
  refine ⟨first ++ second, ?_, happend first second hp hq⟩
  rw [hsecond, hfirst, List.append_assoc]

theorem Since.refl {session : Session} {P : List Exchange → Prop} (h : P []) :
    Since session.exchanges P session :=
  ⟨[], (List.append_nil _).symm, h⟩

/-! ## Single calls -/

def OdooXmlRpcClient.login (client : OdooXmlRpcClient) : Option Int × Option Datetime :=
  (client.uid, client.lastAuthenticatedAt)

/-- The login is still the one from before the exchanges since `past`. -/
structure Dialing (past : List Exchange) (login : Option Int × Option Datetime)
    (P : List Exchange → Prop) (session : Session) : Prop where
  login : session.client.login = login
  since : Since past P session

/-- The last call has raised, in a way that is caught or not. -/
def Raised (remote : RemoteError) (made : List Exchange) : Prop :=
  (if remote.isTransport then Quiet made else Escaped made) ∧
    ∃ call, made.getLast? = some ⟨call, .error remote⟩

theorem Raised.quiet {remote : RemoteError} {made : List Exchange} (h : Raised remote made)
    (htransport : remote.isTransport = true) : Quiet made := by
  have hmade := h.1
  rwa [if_pos htransport] at hmade

theorem Raised.escaped {remote : RemoteError} {made : List Exchange} (h : Raised remote made)
    (htransport : ¬ remote.isTransport = true) : Escaped made := by
  have hmade := h.1
  rwa [if_neg htransport] at hmade

/-- A call of the common endpoint has failed. -/
def Failed (past : List Exchange) (error : ClientError) (session : Session) : Prop :=
  ∃ remote, error = .remote remote ∧ Since past (Raised remote) session

section

variable {world : World} {past : List Exchange} {login : Option Int × Option Datetime}

theorem changeClient_triple {before : Session → Prop} {returns : PUnit → Session → Prop}
    {raises : ClientError → Session → Prop} {f : OdooXmlRpcClient → OdooXmlRpcClient}
    (h : ∀ session, before session →
      returns ⟨⟩ { session with client := f session.client }) :
    Effect.Triple before (changeClient f) returns raises :=
  Effect.Triple.change h

/-- What a call is answered is recorded. -/
theorem request_eq (world : World) (call : Call) (session : Session) :
    request world call session =
      ((world.respond session.exchanges call).mapError .remote,
        ⟨session.client, session.exchanges ++
          [⟨call, world.respond session.exchanges call⟩]⟩) := rfl

theorem request_triple {call : Call} (hcall : call.isExecute = false) :
    Effect.Triple (Dialing past login Quiet) (request world call)
      (fun answer => Dialing past login fun made =>
        Quiet made ∧ made.getLast? = some ⟨call, .ok answer⟩)
      (Failed past) := by
  intro session hsession
  obtain ⟨hlogin, made, hmade, hquiet⟩ := hsession
  rw [request_eq]
  cases hanswer : world.respond session.exchanges call with
  | ok answer =>
      refine ⟨hlogin, made ++ [⟨call, .ok answer⟩], ?_, hquiet.append ?_, by simp⟩
      · rw [hmade, List.append_assoc]
      · intro exchange hmem
        rw [List.mem_singleton.mp hmem]
        exact ⟨rfl, hcall⟩
  | error error =>
      refine ⟨error, rfl, made ++ [⟨call, .error error⟩], ?_, ?_, call, by simp⟩
      · rw [hmade, List.append_assoc]
      · split
        · next htransport =>
          refine hquiet.append ?_
          intro exchange hmem
          rw [List.mem_singleton.mp hmem]
          cases error with
          | protocolError | osError => exact ⟨rfl, hcall⟩
          | fault | other => cases htransport
        · next htransport =>
          refine hquiet.escaped ⟨by simpa [Exchange.isExecute] using hcall, _,
            List.mem_singleton_self _, ?_⟩
          cases error with
          | protocolError | osError => exact absurd rfl htransport
          | fault => simp [Exchange.uncaught, Exchange.isExecute, hcall]
          | other => rfl

theorem getCommonProxy_triple :
    Effect.Triple (Dialing past login Quiet) (getCommonProxy world)
      (fun _ => Dialing past login Quiet) (Failed past) := by
  refine .bind (.read fun _ h => h) fun session => ?_
  refine .ite (fun _ => .done fun _ h => h) fun _ => ?_
  refine .bind (request_triple rfl) fun answer => ?_
  exact changeClient_triple fun s h => ⟨h.login, h.since.imp fun _ hmade => hmade.1⟩

theorem getModelsProxy_triple (world : World) (past : List Exchange)
    (login : Option Int × Option Datetime) :
    Effect.Triple (Dialing past login Quiet) (getModelsProxy world)
      (fun _ => Dialing past login Quiet) (Failed past) := by
  refine .bind (.read fun _ h => h) fun session => ?_
  refine .ite (fun _ => .done fun _ h => h) fun _ => ?_
  refine .bind (request_triple rfl) fun answer => ?_
  exact changeClient_triple fun s h => ⟨h.login, h.since.imp fun _ hmade => hmade.1⟩

/-- The last call has been answered. -/
def Answered (kind : Call → Bool) (answer : PyValue) (made : List Exchange) : Prop :=
  Quiet made ∧ ∃ call, made.getLast? = some ⟨call, .ok answer⟩ ∧ kind call = true

theorem callAuthenticate_triple :
    Effect.Triple (Dialing past login Quiet) (callAuthenticate world)
      (fun answer => Dialing past login (Answered Call.isAuthenticate answer))
      (Failed past) := by
  refine .bind getCommonProxy_triple fun _ => ?_
  refine .bind (.read fun _ h => h) fun session => ?_
  refine (request_triple rfl).weaken (fun _ h => h) ?_ fun _ _ h => h
  intro answer s h
  refine ⟨h.login, h.since.imp ?_⟩
  rintro made ⟨hquiet, hlast⟩
  exact ⟨hquiet, _, hlast, rfl⟩

theorem callVersion_triple :
    Effect.Triple (Dialing past login Quiet) (callVersion world)
      (fun answer => Dialing past login (Answered (· == .version) answer))
      (Failed past) := by
  refine .bind getCommonProxy_triple fun _ => ?_
  refine (request_triple rfl).weaken (fun _ h => h) ?_ fun _ _ h => h
  intro answer s h
  refine ⟨h.login, h.since.imp ?_⟩
  rintro made ⟨hquiet, hlast⟩
  exact ⟨hquiet, _, hlast, rfl⟩

/-! ## Authentication -/

/-- Nothing is cached any more. -/
structure Cleared (client : OdooXmlRpcClient) : Prop where
  uid : client.uid = none
  lastAuthenticatedAt : client.lastAuthenticatedAt = none
  common : client.common = false
  models : client.models = false

theorem cleared_close (client : OdooXmlRpcClient) : Cleared client.close := ⟨rfl, rfl, rfl, rfl⟩

/-- An `OdooAuthenticationError` from a cleared client, or an exception that nobody
catches. -/
def AuthenticationEnd (past : List Exchange) (error : ClientError) (session : Session) :
    Prop :=
  (∃ message, error = .authentication message ∧ Cleared session.client ∧
      Since past Quiet session) ∨
    ∃ remote, error = .remote remote ∧ remote.isTransport = false ∧
      Since past Escaped session

/-- A transport error is raised anew from a cleared client, any other one as it is. -/
theorem authenticationFailure_raised {α : Type} (failure : Text) (remote : RemoteError)
    {returns : α → Session → Prop} :
    Effect.Triple (Since past (Raised remote)) (authenticationFailure failure (.remote remote))
      returns (fun error session => Since past (Raised remote) session ∧
        (remote.isTransport = true ∧ Cleared session.client ∧
            (∃ message, error = .authentication message) ∨
          remote.isTransport = false ∧ error = .remote remote)) := by
  intro session hsince
  unfold authenticationFailure
  by_cases htransport : remote.isTransport = true
  · simp only [htransport, if_true]
    exact ⟨hsince, .inl ⟨trivial, cleared_close _, _, rfl⟩⟩
  · simp only [htransport]
    exact ⟨hsince, .inr ⟨trivial, rfl⟩⟩

theorem authenticationFailure_triple {α : Type} (failure : Text) (error : ClientError)
    {returns : α → Session → Prop} :
    Effect.Triple (Failed past error) (authenticationFailure failure error) returns
      (AuthenticationEnd past) := by
  rintro session ⟨remote, rfl, hsince⟩
  refine (authenticationFailure_raised failure remote session hsince).weaken
    (fun _ _ h => h) ?_
  rintro error after ⟨hraised, ⟨htransport, hcleared, hmessage⟩ | ⟨htransport, rfl⟩⟩
  · obtain ⟨message, rfl⟩ := hmessage
    exact .inl ⟨message, rfl, hcleared, hraised.imp fun _ h => h.quiet htransport⟩
  · exact .inr ⟨remote, rfl, htransport, hraised.imp fun _ h =>
      h.escaped (Bool.eq_false_iff.mp htransport)⟩

theorem positiveInt_pos {answer : PyValue} {uid : Int} (h : positiveInt answer = some uid) :
    0 < uid := by
  unfold positiveInt at h
  split at h
  · next value =>
    by_cases hpos : 0 < value
    · rw [if_pos hpos, Option.some.injEq] at h
      exact h ▸ hpos
    · rw [if_neg hpos] at h
      cases h
  · cases h
    decide
  · cases h

theorem authenticate_triple (world : World) (past : List Exchange)
    (login : Option Int × Option Datetime) :
    Effect.Triple (Dialing past login Quiet) (authenticate world)
      (fun uid session => 0 < uid ∧ session.client.uid = some uid ∧
        Since past Authenticated session)
      (AuthenticationEnd past) := by
  refine .bind (.handle callAuthenticate_triple fun error =>
    authenticationFailure_triple _ error) fun answer => ?_
  cases huid : positiveInt answer with
  | none =>
      intro session h
      exact .inl ⟨_, rfl, cleared_close _, h.since.imp fun _ hmade => hmade.1⟩
  | some uid =>
      intro session h
      refine ⟨positiveInt_pos huid, rfl, h.since.imp ?_⟩
      rintro made ⟨hquiet, call, hlast, hkind⟩
      refine ⟨hquiet, _, List.mem_of_getLast? hlast, ?_⟩
      simp [Exchange.authenticates, hkind, huid]

/-- Any state is the start of its own exchanges. -/
theorem authenticate_after {P : List Exchange → Prop}
    (hquiet : ∀ first second, P first → Quiet second → P (first ++ second)) :
    Effect.Triple (Since past P) (authenticate world)
      (fun uid session => 0 < uid ∧ session.client.uid = some uid ∧
        Since past (fun made => ∃ first second, made = first ++ second ∧ P first ∧
          Authenticated second) session)
      (fun error session =>
        (∃ message, error = .authentication message ∧ Cleared session.client ∧
          Since past P session) ∨
        ∃ remote, error = .remote remote ∧ remote.isTransport = false ∧
          Since past (fun made => ∃ first second, made = first ++ second ∧ P first ∧
            Escaped second) session) := by
  refine .of_start fun start hstart => ?_
  have hown := authenticate_triple world start.exchanges start.client.login
  refine hown.weaken ?_ ?_ ?_
  · rintro session rfl
    exact ⟨rfl, .refl .nil⟩
  · rintro uid session ⟨hpos, huid, hsince⟩
    exact ⟨hpos, huid, hstart.trans hsince fun first second hp hq =>
      ⟨first, second, rfl, hp, hq⟩⟩
  · rintro error session (⟨message, rfl, hcleared, hsince⟩ | ⟨remote, rfl, htransport, hsince⟩)
    · exact .inl ⟨message, rfl, hcleared, hstart.trans hsince hquiet⟩
    · exact .inr ⟨remote, rfl, htransport, hstart.trans hsince fun first second hp hq =>
        ⟨first, second, rfl, hp, hq⟩⟩

/-! ## Readiness -/

/-- The session is fresh, and the interval for its revalidation has no `timedelta`. -/
def IntervalRaises (login : Option Int × Option Datetime)
    (revalidateAfterSeconds : Option Seconds) : Prop :=
  login.1.any (0 < ·) = true ∧ login.2.isSome = true ∧
    ∃ seconds, revalidateAfterSeconds = some seconds ∧ seconds.positive = true ∧
      seconds.delta = none

/-- The last answer is the dictionary of a version. -/
def VersionRead (made : List Exchange) : Prop :=
  ∃ entries, made.getLast? = some ⟨.version, .ok (.dict entries)⟩

variable {seconds : Option Seconds}

theorem authenticationRevalidationDue_triple {P : List Exchange → Prop} :
    Effect.Triple (Dialing past login P) (authenticationRevalidationDue world seconds)
      (fun _ session => Since past P session ∧ ¬ IntervalRaises login seconds)
      (fun error session => Since past P session ∧ IntervalRaises login seconds ∧
        ∃ remote, error = .remote remote ∧ remote.isTransport = false) := by
  unfold authenticationRevalidationDue
  refine .bind (.read_self fun _ h => h) fun session => ?_
  rintro _ ⟨rfl, rfl, hsince⟩
  cases hauthenticated : session.client.isAuthenticated with
  | false =>
      refine ⟨hsince, fun hraises => ?_⟩
      have hlogin := hraises.1
      rw [OdooXmlRpcClient.isAuthenticated] at hauthenticated
      rw [OdooXmlRpcClient.login, hauthenticated] at hlogin
      cases hlogin
  | true =>
      cases hlast : session.client.lastAuthenticatedAt with
      | none =>
          refine ⟨hsince, fun hraises => ?_⟩
          have hlogin := hraises.2.1
          rw [OdooXmlRpcClient.login, hlast] at hlogin
          cases hlogin
      | some last =>
          cases seconds with
          | none =>
              refine ⟨hsince, ?_⟩
              rintro ⟨-, -, _, hnone, -⟩
              cases hnone
          | some seconds =>
              by_cases hpositive : seconds.positive = true
              · simp only [hpositive, if_true]
                cases hdelta : seconds.delta with
                | none =>
                    exact ⟨hsince, ⟨hauthenticated, by simp [OdooXmlRpcClient.login, hlast],
                      seconds, rfl, hpositive, hdelta⟩, _, rfl, rfl⟩
                | some delta =>
                    refine ⟨hsince, ?_⟩
                    rintro ⟨-, -, _, heq, -, hnone⟩
                    cases heq
                    rw [hdelta] at hnone
                    cases hnone
              · simp only [hpositive]
                refine ⟨hsince, ?_⟩
                rintro ⟨-, -, _, heq, htrue, -⟩
                cases heq
                exact hpositive htrue

/-- Every answer is handled, and the interval has not raised. -/
def ReadinessKept (login : Option Int × Option Datetime) (seconds : Option Seconds)
    (made : List Exchange) : Prop :=
  (∀ exchange ∈ made, exchange.uncaught = false) ∧
    ¬ (IntervalRaises login seconds ∧ VersionRead made)

/-- An `OdooAuthenticationError`, or an exception that nobody catches. -/
def ReadinessEnd (past : List Exchange) (login : Option Int × Option Datetime)
    (seconds : Option Seconds) (error : ClientError) (session : Session) : Prop :=
  (∃ message, error = .authentication message ∧
      Since past (ReadinessKept login seconds) session) ∨
    ∃ remote, error = .remote remote ∧ remote.isTransport = false ∧
      Since past (fun made => ¬ ReadinessKept login seconds made) session

theorem Raised.not_versionRead {remote : RemoteError} {made : List Exchange}
    (h : Raised remote made) : ¬ VersionRead made := by
  obtain ⟨-, call, hlast⟩ := h
  rintro ⟨entries, hversion⟩
  rw [hlast] at hversion
  cases hversion

theorem Answered.versionRead_iff {answer : PyValue} {made : List Exchange}
    (h : Answered (· == .version) answer made) :
    VersionRead made ↔ ∃ entries, answer = .dict entries := by
  obtain ⟨-, call, hlast, hcall⟩ := h
  obtain rfl := beq_iff_eq.mp hcall
  simp [VersionRead, hlast]

theorem revalidate_triple {entries : List (Text × PyValue)} :
    Effect.Triple (Dialing past login (Answered (· == .version) (.dict entries)))
      (revalidate world seconds)
      (fun _ => Since past (ReadinessKept login seconds))
      (ReadinessEnd past login seconds) := by
  have hkept : ∀ {made}, ¬ IntervalRaises login seconds → Quiet made →
      ReadinessKept login seconds made := fun hraises hquiet =>
    ⟨hquiet.not_escaped, fun h => hraises h.1⟩
  refine .bind (authenticationRevalidationDue_triple.weaken (fun _ h => h) (fun _ _ h => h)
    ?_) fun due => ?_
  · rintro error session ⟨hsince, hraises, remote, rfl, htransport⟩
    refine .inr ⟨remote, rfl, htransport, hsince.imp fun made hmade hsafe => ?_⟩
    exact hsafe.2 ⟨hraises, hmade.versionRead_iff.mpr ⟨entries, rfl⟩⟩
  · by_cases hraises : IntervalRaises login seconds
    · intro session h
      exact absurd hraises h.2
    · refine .ite (fun _ => ?_) fun _ => .done fun session h =>
        h.1.imp fun made hmade => hkept hraises hmade.1
      refine .bind ((authenticate_after (P := Quiet) fun _ _ => Quiet.append).weaken
        (fun session h => h.1.imp fun made hmade => hmade.1) ?_ ?_) fun _ => .done fun _ h => h
      · rintro uid session ⟨-, -, hsince⟩
        refine hsince.imp ?_
        rintro _ ⟨first, second, rfl, hfirst, hsecond⟩
        exact hkept hraises (hfirst.append hsecond.1)
      · rintro error session (⟨message, rfl, -, hsince⟩ | ⟨remote, rfl, htransport, hsince⟩)
        · exact .inl ⟨message, rfl, hsince.imp fun _ => hkept hraises⟩
        · refine .inr ⟨remote, rfl, htransport, hsince.imp ?_⟩
          rintro _ ⟨first, second, rfl, hfirst, hsecond⟩ hsafe
          exact (hfirst.escaped hsecond).uncaught hsafe.1

theorem checkVersion_triple (answer : PyValue) :
    Effect.Triple (Dialing past login (Answered (· == .version) answer))
      (checkVersion world seconds answer)
      (fun _ => Since past (ReadinessKept login seconds))
      (ReadinessEnd past login seconds) := by
  cases answer with
  | dict entries => exact revalidate_triple
  | none | bool | int | float | text | list | object =>
      intro session h
      refine h.since.imp fun made hmade => ⟨hmade.1.not_escaped, fun hread => ?_⟩
      obtain ⟨entries, hdict⟩ := hmade.versionRead_iff.mp hread.2
      cases hdict

theorem authenticationFailure_passes {α : Type} {failure : Text} {error : ClientError}
    (h : ∀ remote, error = .remote remote → remote.isTransport = false) :
    (authenticationFailure failure error : Client α) = Effect.raise error := by
  cases error with
  | remote remote => simp [authenticationFailure, h remote rfl]
  | authentication | submission => rfl

theorem readinessFailure_triple (failure : Text) (error : ClientError)
    {returns : Bool → Session → Prop} :
    Effect.Triple
      (fun session => Failed past error session ∨ ReadinessEnd past login seconds error session)
      (authenticationFailure failure error) returns (ReadinessEnd past login seconds) := by
  rintro session (⟨remote, rfl, hsince⟩ | hend)
  · refine (authenticationFailure_raised _ remote session hsince).weaken (fun _ _ h => h) ?_
    rintro error after ⟨hraised, ⟨htransport, -, message, rfl⟩ | ⟨htransport, rfl⟩⟩
    · exact .inl ⟨message, rfl, hraised.imp fun _ h =>
        ⟨(h.quiet htransport).not_escaped, fun hread => h.not_versionRead hread.2⟩⟩
    · exact .inr ⟨remote, rfl, htransport, hraised.imp fun _ h hsafe =>
        (h.escaped (Bool.eq_false_iff.mp htransport)).uncaught hsafe.1⟩
  · rw [authenticationFailure_passes]
    · exact hend
    · obtain ⟨message, rfl, -⟩ | ⟨remote, rfl, htransport, -⟩ := hend
      · intro remote heq
        cases heq
      · rintro _ ⟨⟩
        exact htransport

theorem checkReadiness_triple (world : World) (past : List Exchange)
    (seconds : Option Seconds) :
    Effect.Triple (Dialing past login Quiet) (checkReadiness world seconds)
      (fun _ => Since past (ReadinessKept login seconds))
      (ReadinessEnd past login seconds) := by
  have hbody : Effect.Triple (Dialing past login Quiet)
      (do
        let version ← callVersion world
        checkVersion world seconds version)
      (fun _ => Since past (ReadinessKept login seconds))
      (fun error session =>
        Failed past error session ∨ ReadinessEnd past login seconds error session) := by
    refine .bind (callVersion_triple.weaken (fun _ h => h) (fun _ _ h => h)
      fun _ _ => .inl) fun answer => ?_
    exact (checkVersion_triple answer).weaken (fun _ h => h) (fun _ _ h => h) fun _ _ => .inr
  exact .handle hbody fun error => readinessFailure_triple _ error

/-! ## Submission -/

def RemoteError.isFault : RemoteError → Bool
  | .fault _ _ _ => true
  | _ => false

def ClientError.isRemote : ClientError → Bool
  | .remote _ => true
  | _ => false

def Handled (made : List Exchange) : Prop := ∀ exchange ∈ made, exchange.uncaught = false

def NoExecute (made : List Exchange) : Prop := ∀ exchange ∈ made, exchange.isExecute = false

theorem Quiet.noExecute {made : List Exchange} (h : Quiet made) : NoExecute made :=
  fun exchange hmem => (h exchange hmem).2

theorem Quiet.handled {made : List Exchange} (h : Quiet made) : Handled made :=
  h.not_escaped

theorem Handled.append_iff {first second : List Exchange} :
    Handled (first ++ second) ↔ Handled first ∧ Handled second := by
  simp [Handled, or_imp, forall_and]

/-- Calls of the common endpoint, then one `execute_kw` with this answer. -/
def Executed (answer : Except RemoteError PyValue) (made : List Exchange) : Prop :=
  ∃ front last, made = front ++ [last] ∧ Quiet front ∧ last.isExecute = true ∧
    last.answer = answer

theorem Executed.handled_iff {answer : Except RemoteError PyValue} {made : List Exchange}
    (h : Executed answer made) :
    Handled made ↔ ∀ text, answer ≠ .error (.other text) := by
  obtain ⟨front, last, rfl, hquiet, hexecute, rfl⟩ := h
  have hlast : last.uncaught = false ↔ ∀ text, last.answer ≠ .error (.other text) := by
    unfold Exchange.uncaught
    split
    · next hanswer => simp [hanswer, hexecute]
    · next hanswer => simp [hanswer]
    · next hother => simpa using hother
  rw [Handled.append_iff, ← hlast, and_iff_right hquiet.handled]
  simp [Handled]

/-- An exception of the proxies is no fault. -/
theorem serverProxy_noFault (uri : Text) :
    Effect.Triple (fun _ => True) (request world (.serverProxy uri)) (fun _ _ => True)
      (fun error _ => ∀ remote, error = .remote remote → remote.isFault = false) := by
  intro session _
  rw [request_eq, World.respond]
  cases world.serverProxy uri with
  | none => trivial
  | some failure =>
      rintro _ ⟨⟩
      cases failure with
      | unsupported | malformed => rfl

theorem getModelsProxy_noFault (world : World) :
    Effect.Triple (fun _ => True) (getModelsProxy world) (fun _ _ => True)
      (fun error _ => ∀ remote, error = .remote remote → remote.isFault = false) := by
  refine .bind (.read_self fun _ _ => trivial) fun session => ?_
  refine .ite (fun _ => .done fun _ _ => trivial) fun _ => ?_
  refine .bind ((serverProxy_noFault _).weaken (fun _ _ => trivial) (fun _ _ h => h)
    fun _ _ h => h) fun _ => ?_
  exact changeClient_triple fun _ _ => trivial

/-- The proxy could not be made, or `execute_kw` has raised. -/
def ExecuteFailed (past : List Exchange) (error : ClientError) (session : Session) : Prop :=
  ∃ remote, error = .remote remote ∧
    (remote.isFault = false ∧ Since past (Raised remote) session ∨
      Since past (Executed (.error remote)) session)

theorem execute_triple {call : Call} (hcall : call.isExecute = true) :
    Effect.Triple (Since past Quiet) (request world call)
      (fun answer => Since past (Executed (.ok answer))) (ExecuteFailed past) := by
  rintro session ⟨made, hmade, hquiet⟩
  rw [request_eq]
  cases hanswer : world.respond session.exchanges call with
  | ok answer =>
      refine ⟨made ++ [⟨call, .ok answer⟩], ?_, made, ⟨call, .ok answer⟩, rfl, hquiet, hcall,
        rfl⟩
      rw [hmade, List.append_assoc]
  | error error =>
      refine ⟨error, rfl, .inr ⟨made ++ [⟨call, .error error⟩], ?_, made,
        ⟨call, .error error⟩, rfl, hquiet, hcall, rfl⟩⟩
      rw [hmade, List.append_assoc]

theorem callExecuteKw_triple {payload : List (Text × Text)} :
    Effect.Triple (Since past Quiet) (callExecuteKw world payload)
      (fun answer => Since past (Executed (.ok answer))) (ExecuteFailed past) := by
  have hproxy : Effect.Triple (Since past Quiet) (getModelsProxy world)
      (fun _ => Since past Quiet) (ExecuteFailed past) := by
    refine .of_start fun start hstart => ?_
    have hboth := (getModelsProxy_triple world past start.client.login).and
      (getModelsProxy_noFault world)
    refine hboth.weaken ?_ (fun _ _ h => h.1.since) ?_
    · rintro session rfl
      exact ⟨⟨rfl, hstart⟩, trivial⟩
    · rintro error session ⟨⟨remote, rfl, hsince⟩, hfault⟩
      exact ⟨remote, rfl, .inl ⟨hfault remote rfl, hsince⟩⟩
  exact .bind hproxy fun _ => .bind (.read fun _ h => h) fun start => execute_triple rfl

/-! ## Two attempts -/

/-- At most one `execute_kw` call, at the end. -/
def Attempted (made : List Exchange) : Prop :=
  NoExecute made ∨ ∃ front last, made = front ++ [last] ∧ NoExecute front ∧
    last.isExecute = true

theorem Executed.attempted {answer : Except RemoteError PyValue} {made : List Exchange}
    (h : Executed answer made) : Attempted made := by
  obtain ⟨front, last, rfl, hquiet, hexecute, -⟩ := h
  exact .inr ⟨front, last, rfl, hquiet.noExecute, hexecute⟩

/-- The client's own exceptions come after handled answers only. -/
def AttemptEnd (past : List Exchange) (error : ClientError) (session : Session) : Prop :=
  Since past (fun made => Attempted made ∧ (Handled made ↔ error.isRemote = false)) session

theorem ensureAuthenticated_triple :
    Effect.Triple (Since past Quiet) (ensureAuthenticated world)
      (fun _ => Since past Quiet) (AttemptEnd past) := by
  refine .bind (.read fun _ h => h) fun session => ?_
  refine .ite (fun _ => .done fun _ h => h) fun _ => ?_
  refine .bind ((authenticate_after (P := Quiet) fun _ _ => Quiet.append).weaken
    (fun _ h => h) ?_ ?_) fun _ => .done fun _ h => h
  · rintro uid after ⟨-, -, hsince⟩
    refine hsince.imp ?_
    rintro _ ⟨first, second, rfl, hfirst, hsecond⟩
    exact hfirst.append hsecond.1
  · rintro error after (⟨message, rfl, -, hsince⟩ | ⟨remote, rfl, -, hsince⟩)
    · exact hsince.imp fun made hmade =>
        ⟨.inl hmade.noExecute, iff_of_true hmade.handled rfl⟩
    · refine hsince.imp ?_
      rintro _ ⟨first, second, rfl, hfirst, hsecond⟩
      have hescaped := hfirst.escaped hsecond
      exact ⟨.inl hescaped.1, iff_of_false hescaped.uncaught nofun⟩

theorem ExecuteFailed.since {remote : RemoteError} {session : Session}
    (h : remote.isFault = false ∧ Since past (Raised remote) session ∨
      Since past (Executed (.error remote)) session) :
    Since past (fun made => Attempted made ∧
      (Handled made ↔ ∀ text, remote ≠ .other text)) session := by
  obtain ⟨hfault, hraised⟩ | hexecuted := h
  · refine hraised.imp fun made hmade => ?_
    by_cases htransport : remote.isTransport = true
    · have hquiet := hmade.quiet htransport
      refine ⟨.inl hquiet.noExecute, iff_of_true hquiet.handled ?_⟩
      rintro text rfl
      cases htransport
    · have hescaped := hmade.escaped htransport
      refine ⟨.inl hescaped.1, iff_of_false hescaped.uncaught fun hnone => ?_⟩
      cases remote with
      | fault => cases hfault
      | protocolError | osError => exact htransport rfl
      | other text => exact hnone text rfl
  · refine hexecuted.imp fun made hmade => ⟨hmade.attempted, ?_⟩
    rw [hmade.handled_iff]
    simp

/-- Without a retry every exception but the unknown ones becomes the client's own. -/
theorem submissionFailure_none (error : ClientError) {returns : PyValue → Session → Prop} :
    Effect.Triple (ExecuteFailed past error) (submissionFailure none error) returns
      (AttemptEnd past) := by
  rintro session ⟨remote, rfl, hcases⟩
  have hsince := ExecuteFailed.since hcases
  have hown : (∀ text, remote ≠ .other text) → ∀ message,
      AttemptEnd past (.submission message) session := fun hknown message =>
    hsince.imp fun made hmade => ⟨hmade.1, iff_of_true (hmade.2.mpr hknown) rfl⟩
  cases remote with
  | fault faultCode faultString text =>
      have hraise : submissionFailure none (.remote (.fault faultCode faultString text)) =
          Effect.raise (.submission (str "Odoo XML-RPC fault: " ++ text)) := by
        simp [submissionFailure]
      rw [hraise]
      exact hown (fun _ => nofun) _
  | protocolError errcode errmsg text => exact hown (fun _ => nofun) _
  | osError text => exact hown (fun _ => nofun) _
  | other text =>
      refine hsince.imp fun made hmade => ⟨hmade.1, iff_of_false ?_ nofun⟩
      exact fun hhandled => hmade.2.mp hhandled text rfl

theorem submitAttempt_none_triple (past : List Exchange)
    {payload : List (Text × Text)} :
    Effect.Triple (Since past Quiet) (submitAttempt world payload none)
      (fun answer => Since past (Executed (.ok answer))) (AttemptEnd past) :=
  .bind ensureAuthenticated_triple fun _ =>
    .handle callExecuteKw_triple fun error => submissionFailure_none error

/-- The first attempt was answered by an authentication fault. -/
def Faulted (made : List Exchange) : Prop :=
  ∃ front first, made = front ++ [first] ∧ Quiet front ∧ first.isExecute = true ∧
    first.authenticationFault = true

/-- A second `execute_kw` call has come after an authentication fault of the first one and
a successful authentication. -/
def Retried (made : List Exchange) : Prop :=
  ∃ front first rest, made = front ++ first :: rest ∧ NoExecute front ∧
    first.isExecute = true ∧ first.authenticationFault = true ∧
    (NoExecute rest ∨ ∃ between second, rest = between ++ [second] ∧ NoExecute between ∧
      (∃ exchange ∈ between, exchange.authenticates = true) ∧ second.isExecute = true)

def RetriedOnce (made : List Exchange) : Prop := Attempted made ∨ Retried made

theorem Faulted.handled {made : List Exchange} (h : Faulted made) : Handled made := by
  obtain ⟨front, first, rfl, hquiet, hexecute, hfault⟩ := h
  refine Handled.append_iff.mpr ⟨hquiet.handled, ?_⟩
  intro exchange hmem
  rw [List.mem_singleton.mp hmem]
  unfold Exchange.authenticationFault at hfault
  unfold Exchange.uncaught
  split at hfault
  · next hanswer => simp [hanswer, hexecute]
  · cases hfault

theorem Faulted.retried {first rest : List Exchange} (h : Faulted first)
    (hrest : NoExecute rest) : RetriedOnce (first ++ rest) := by
  obtain ⟨front, refused, rfl, hquiet, hexecute, hfault⟩ := h
  exact .inr ⟨front, refused, rest, by simp, hquiet.noExecute, hexecute, hfault, .inl hrest⟩

theorem NoExecute.append {first second : List Exchange} (hfirst : NoExecute first)
    (hsecond : NoExecute second) : NoExecute (first ++ second) :=
  fun exchange hmem => (List.mem_append.mp hmem).elim (hfirst exchange) (hsecond exchange)

/-- The second attempt after a fault and an authentication. -/
theorem Faulted.retried_attempt {first between rest : List Exchange} (h : Faulted first)
    (hbetween : Authenticated between) (hrest : Attempted rest) :
    RetriedOnce (first ++ between ++ rest) := by
  obtain hnone | ⟨front, last, rfl, hfront, hlast⟩ := hrest
  · rw [List.append_assoc]
    exact h.retried (hbetween.1.noExecute.append hnone)
  · obtain ⟨before, refused, rfl, hquiet, hexecute, hfault⟩ := h
    obtain ⟨exchange, hmem, hauthenticates⟩ := hbetween.2
    refine .inr ⟨before, refused, between ++ front ++ [last], by simp, hquiet.noExecute,
      hexecute, hfault, .inr ⟨between ++ front, last, rfl, ?_, ?_, hlast⟩⟩
    · exact hbetween.1.noExecute.append hfront
    · exact ⟨exchange, List.mem_append_left _ hmem, hauthenticates⟩

/-- The value is that of the last call. -/
def Submitted (answer : PyValue) (made : List Exchange) : Prop :=
  RetriedOnce made ∧ Handled made ∧
    ∃ front last, made = front ++ [last] ∧ last.isExecute = true ∧ last.answer = .ok answer

def SubmitEnd (past : List Exchange) (error : ClientError) (session : Session) : Prop :=
  Since past (fun made => RetriedOnce made ∧ (Handled made ↔ error.isRemote = false)) session

theorem AttemptEnd.submitEnd {error : ClientError} {session : Session}
    (h : AttemptEnd past error session) : SubmitEnd past error session :=
  h.imp fun _ hmade => ⟨.inl hmade.1, hmade.2⟩

theorem Executed.submitted {answer : PyValue} {made : List Exchange}
    (h : Executed (.ok answer) made) : Submitted answer made := by
  have hhandled := h.handled_iff.mpr fun _ => nofun
  have hattempted := h.attempted
  obtain ⟨front, last, rfl, -, hexecute, hanswer⟩ := h
  exact ⟨.inl hattempted, hhandled, front, last, rfl, hexecute, hanswer⟩

/-- The second attempt, after an authentication. -/
theorem submitAttempt_after {payload : List (Text × Text)} :
    Effect.Triple
      (Since past fun made => ∃ first second, made = first ++ second ∧ Faulted first ∧
        Authenticated second)
      (submitAttempt world payload none)
      (fun answer => Since past (Submitted answer)) (SubmitEnd past) := by
  refine .of_start fun start hstart => ?_
  refine (submitAttempt_none_triple start.exchanges).weaken ?_ ?_ ?_
  · rintro session rfl
    exact .refl .nil
  · intro answer session hsince
    refine hstart.trans hsince ?_
    rintro _ rest ⟨first, second, rfl, hfaulted, hauthenticated⟩ hexecuted
    have hhandled := hexecuted.handled_iff.mpr fun _ => nofun
    have hretried := hfaulted.retried_attempt hauthenticated hexecuted.attempted
    obtain ⟨front, last, rfl, -, hexecute, hanswer⟩ := hexecuted
    refine ⟨hretried, ?_, first ++ second ++ front, last, by simp, hexecute, hanswer⟩
    exact Handled.append_iff.mpr ⟨Handled.append_iff.mpr
      ⟨hfaulted.handled, hauthenticated.1.handled⟩, hhandled⟩
  · intro error session hsince
    refine hstart.trans hsince ?_
    rintro _ rest ⟨first, second, rfl, hfaulted, hauthenticated⟩ ⟨hattempted, hhandled⟩
    refine ⟨hfaulted.retried_attempt hauthenticated hattempted, ?_⟩
    rw [Handled.append_iff, Handled.append_iff, ← hhandled]
    exact and_iff_right ⟨hfaulted.handled, hauthenticated.1.handled⟩

theorem submitAgain_triple {payload : List (Text × Text)} :
    Effect.Triple (Since past Faulted) (submitAgain world payload)
      (fun answer => Since past (Submitted answer)) (SubmitEnd past) := by
  have hinvalid : Effect.Triple (Since past Faulted)
      (changeClient .invalidateSession) (fun _ => Since past Faulted)
      (SubmitEnd past) := changeClient_triple fun _ h => h
  refine .bind hinvalid fun _ => .of_start fun start hstart => ?_
  have hown := authenticate_triple world start.exchanges start.client.login
  refine .bind (hown.weaken ?_ ?_ ?_) fun _ => submitAttempt_after
  · rintro session rfl
    exact ⟨rfl, .refl .nil⟩
  · rintro uid session ⟨-, -, hsince⟩
    exact hstart.trans hsince fun first second hfirst hsecond =>
      ⟨first, second, rfl, hfirst, hsecond⟩
  · rintro error session (⟨message, rfl, -, hsince⟩ | ⟨remote, rfl, -, hsince⟩)
    · refine hstart.trans hsince fun first second hfirst hsecond =>
        ⟨hfirst.retried hsecond.noExecute, iff_of_true ?_ rfl⟩
      exact Handled.append_iff.mpr ⟨hfirst.handled, hsecond.handled⟩
    · refine hstart.trans hsince fun first second hfirst hsecond =>
        ⟨hfirst.retried hsecond.1, iff_of_false ?_ nofun⟩
      exact fun hhandled => hsecond.uncaught (Handled.append_iff.mp hhandled).2

/-- With a retry an authentication fault leads to the second attempt. -/
theorem submissionFailure_retry {payload : List (Text × Text)} (error : ClientError) :
    Effect.Triple (ExecuteFailed past error)
      (submissionFailure (some (submitAgain world payload)) error)
      (fun answer => Since past (Submitted answer)) (SubmitEnd past) := by
  by_cases hfault : ∃ faultCode faultString text,
      error = .remote (.fault faultCode faultString text) ∧
        isAuthenticationFault faultCode faultString = true
  · obtain ⟨faultCode, faultString, text, rfl, hauthentication⟩ := hfault
    have hretry : submissionFailure (some (submitAgain world payload))
        (.remote (.fault faultCode faultString text)) = submitAgain world payload := by
      simp [submissionFailure, hauthentication]
    rw [hretry]
    refine submitAgain_triple.weaken ?_ (fun _ _ h => h) fun _ _ h => h
    rintro session ⟨remote, heq, hcases⟩
    cases heq
    obtain ⟨hno, -⟩ | hexecuted := hcases
    · cases hno
    · refine hexecuted.imp ?_
      rintro _ ⟨front, last, rfl, hquiet, hexecute, hanswer⟩
      refine ⟨front, last, rfl, hquiet, hexecute, ?_⟩
      simp [Exchange.authenticationFault, hanswer, hauthentication]
  · have hsame : submissionFailure (some (submitAgain world payload)) error =
        submissionFailure none error := by
      cases error with
      | remote remote =>
          cases remote with
          | fault faultCode faultString text =>
              have hother : isAuthenticationFault faultCode faultString = false := by
                rw [Bool.eq_false_iff]
                exact fun h => hfault ⟨faultCode, faultString, text, rfl, h⟩
              simp [submissionFailure, hother]
          | protocolError | osError | other => rfl
      | authentication | submission => rfl
    rw [hsame]
    exact (submissionFailure_none error).weaken (fun _ h => h) (fun _ _ h => h)
      fun _ _ h => h.submitEnd

theorem submitPrintData_triple (world : World) (past : List Exchange)
    (payload : List (Text × Text)) :
    Effect.Triple (Since past Quiet) (submitPrintData world payload)
      (fun answer => Since past (Submitted answer))
      (fun error session => SubmitEnd past error session ∧
        ∀ message, error ≠ .authentication message) := by
  have hattempt : Effect.Triple (Since past Quiet)
      (submitAttempt world payload (some (submitAgain world payload)))
      (fun answer => Since past (Submitted answer)) (SubmitEnd past) := by
    refine .bind (ensureAuthenticated_triple.weaken (fun _ h => h) (fun _ _ h => h)
      fun _ _ h => h.submitEnd) fun _ => ?_
    exact .handle (callExecuteKw_triple.weaken (fun _ h => h)
      (fun _ _ hsince => hsince.imp fun _ h => h.submitted) fun _ _ h => h)
      fun error => submissionFailure_retry error
  refine .handle hattempt fun error => ?_
  intro session hend
  cases error with
  | authentication message => exact ⟨hend, fun _ => nofun⟩
  | remote | submission => exact ⟨hend, fun _ => nofun⟩

end

/-! ## The contract -/

/-- A positive uid that is the cached one, or an `OdooAuthenticationError` and nothing
cached. -/
def AuthenticateContract : Except ClientError Int × Session → Prop :=
  Effect.Ends (fun uid session => 0 < uid ∧ session.client.uid = some uid)
    fun error session => (∃ message, error = .authentication message) ∧ Cleared session.client

/-- The value of the last `execute_kw` call, or an `OdooSubmissionError`. -/
def SubmitContract : Except ClientError PyValue × Session → Prop :=
  Effect.Ends
    (fun value session => ∃ front last, session.exchanges = front ++ [last] ∧
      last.isExecute = true ∧ last.answer = .ok value)
    fun error _ => ∃ message, error = .submission message

/-- A boolean, or an `OdooAuthenticationError`. -/
def ReadinessContract : Except ClientError Bool × Session → Prop :=
  Effect.Ends (fun _ _ => True) fun error _ => ∃ message, error = .authentication message

theorem Since.of_nil {P : List Exchange → Prop} {session : Session} (h : Since [] P session) :
    P session.exchanges := by
  obtain ⟨made, hmade, hp⟩ := h
  rw [hmade]
  exact hp

theorem authenticate_contract_iff (world : World) (client : OdooXmlRpcClient) :
    AuthenticateContract (authenticate world ⟨client, []⟩) ↔
      Handled (authenticate world ⟨client, []⟩).2.exchanges := by
  have hends := authenticate_triple world [] client.login ⟨client, []⟩ ⟨rfl, .refl .nil⟩
  generalize authenticate world ⟨client, []⟩ = result at hends ⊢
  obtain ⟨answer, after⟩ := result
  cases answer with
  | ok uid =>
      obtain ⟨hpos, huid, hsince⟩ := hends
      exact iff_of_true ⟨hpos, huid⟩ hsince.of_nil.1.handled
  | error error =>
      obtain ⟨message, rfl, hcleared, hsince⟩ | ⟨remote, rfl, -, hsince⟩ := hends
      · exact iff_of_true ⟨⟨message, rfl⟩, hcleared⟩ hsince.of_nil.handled
      · refine iff_of_false ?_ hsince.of_nil.uncaught
        rintro ⟨⟨message, heq⟩, -⟩
        cases heq

/-- The worker starts, and goes on with its cycles, exactly when the answers are handled. -/
theorem authenticateOrLog_returns_iff (world : World) (client : OdooXmlRpcClient) :
    (∃ after, authenticateOrLog world ⟨client, []⟩ = (.ok ⟨⟩, after)) ↔
      Handled (authenticate world ⟨client, []⟩).2.exchanges := by
  rw [← authenticate_contract_iff]
  have hends := authenticate_triple world [] client.login ⟨client, []⟩ ⟨rfl, .refl .nil⟩
  unfold authenticateOrLog Effect.handle
  simp only [bind, Effect.andThen]
  generalize authenticate world ⟨client, []⟩ = result at hends ⊢
  obtain ⟨answer, after⟩ := result
  cases answer with
  | ok uid => exact iff_of_true ⟨after, rfl⟩ ⟨hends.1, hends.2.1⟩
  | error error =>
      obtain ⟨message, rfl, hcleared, -⟩ | ⟨remote, rfl, -, -⟩ := hends
      · exact iff_of_true ⟨after, rfl⟩ ⟨⟨message, rfl⟩, hcleared⟩
      · refine iff_of_false ?_ ?_
        · rintro ⟨_, heq⟩
          cases heq
        · rintro ⟨⟨message, heq⟩, -⟩
          cases heq

theorem submit_contract_iff (world : World) (client : OdooXmlRpcClient)
    (payload : List (Text × Text)) :
    (SubmitContract (submitPrintData world payload ⟨client, []⟩) ↔
      Handled (submitPrintData world payload ⟨client, []⟩).2.exchanges) ∧
    RetriedOnce (submitPrintData world payload ⟨client, []⟩).2.exchanges := by
  have hends := submitPrintData_triple world [] payload ⟨client, []⟩ (.refl .nil)
  generalize submitPrintData world payload ⟨client, []⟩ = result at hends ⊢
  obtain ⟨answer, after⟩ := result
  cases answer with
  | ok value =>
      obtain ⟨hretried, hhandled, hlast⟩ := Since.of_nil hends
      exact ⟨iff_of_true hlast hhandled, hretried⟩
  | error error =>
      obtain ⟨hend, hno⟩ := hends
      obtain ⟨hretried, hhandled⟩ := Since.of_nil hend
      refine ⟨?_, hretried⟩
      change (∃ message, error = .submission message) ↔ _
      rw [hhandled]
      cases error with
      | remote remote => simp [ClientError.isRemote]
      | authentication message => exact absurd rfl (hno message)
      | submission message => simp [ClientError.isRemote]

theorem readiness_contract_iff (world : World) (client : OdooXmlRpcClient)
    (seconds : Option Seconds) :
    ReadinessContract (checkReadiness world seconds ⟨client, []⟩) ↔
      ReadinessKept client.login seconds
        (checkReadiness world seconds ⟨client, []⟩).2.exchanges := by
  have hends := checkReadiness_triple world [] seconds
    ⟨client, []⟩ ⟨rfl, .refl .nil⟩
  generalize checkReadiness world seconds ⟨client, []⟩ = result at hends ⊢
  obtain ⟨answer, after⟩ := result
  cases answer with
  | ok ready => exact iff_of_true trivial (Since.of_nil hends)
  | error error =>
      obtain ⟨message, rfl, hsince⟩ | ⟨remote, rfl, -, hsince⟩ := hends
      · exact iff_of_true ⟨message, rfl⟩ hsince.of_nil
      · refine iff_of_false ?_ hsince.of_nil
        rintro ⟨message, heq⟩
        cases heq

theorem RetriedOnce.length_le {made : List Exchange} (h : RetriedOnce made) :
    (made.filter Exchange.isExecute).length ≤ 2 := by
  have hnone : ∀ {made : List Exchange}, NoExecute made →
      made.filter Exchange.isExecute = [] := fun hmade =>
    List.filter_eq_nil_iff.mpr fun exchange hmem => by simp [hmade exchange hmem]
  have hone : ∀ exchange : Exchange, ([exchange].filter Exchange.isExecute).length ≤ 1 :=
    fun exchange => List.length_filter_le _ _
  obtain (hmade | ⟨front, last, rfl, hfront, -⟩) |
    ⟨front, first, rest, rfl, hfront, -, -, hrest⟩ := h
  · simp [hnone hmade]
  · have hlast := hone last
    rw [List.filter_append, hnone hfront, List.nil_append]
    omega
  · have hfirst := hone first
    rw [← List.singleton_append, List.filter_append, List.filter_append, hnone hfront,
      List.nil_append, List.length_append]
    obtain hquiet | ⟨between, second, rfl, hbetween, -⟩ := hrest
    · rw [hnone hquiet, List.length_nil]
      omega
    · have hsecond := hone second
      rw [List.filter_append, hnone hbetween, List.nil_append]
      omega

/--
The error contract: for every client, every remote side and every payload, a method keeps
its contract exactly when the answers of its calls are all handled (and the revalidation
interval of `check_readiness` has a `timedelta`), and an authentication of the worker, which
catches `OdooAuthenticationError` only, returns under the same condition.  In any case a
submission makes at most two `execute_kw` calls, the second one after an authentication
fault of the first and a successful authentication.
-/
theorem odoo_client_contract (world : World) (client : OdooXmlRpcClient)
    (payload : List (Text × Text)) (seconds : Option Seconds) :
    (AuthenticateContract (authenticate world ⟨client, []⟩) ↔
      Handled (authenticate world ⟨client, []⟩).2.exchanges) ∧
    ((∃ after, authenticateOrLog world ⟨client, []⟩ = (.ok ⟨⟩, after)) ↔
      Handled (authenticate world ⟨client, []⟩).2.exchanges) ∧
    (SubmitContract (submitPrintData world payload ⟨client, []⟩) ↔
      Handled (submitPrintData world payload ⟨client, []⟩).2.exchanges) ∧
    (ReadinessContract (checkReadiness world seconds ⟨client, []⟩) ↔
      ReadinessKept client.login seconds
        (checkReadiness world seconds ⟨client, []⟩).2.exchanges) ∧
    RetriedOnce (submitPrintData world payload ⟨client, []⟩).2.exchanges ∧
    ((submitPrintData world payload ⟨client, []⟩).2.exchanges.filter
      Exchange.isExecute).length ≤ 2 := by
  obtain ⟨hsubmit, hretried⟩ := submit_contract_iff world client payload
  exact ⟨authenticate_contract_iff world client, authenticateOrLog_returns_iff world client,
    hsubmit, readiness_contract_iff world client seconds, hretried, hretried.length_le⟩

/-! ## A database that does not exist -/

def sampleSettings : OdooClientSettings :=
  ⟨str "https://test-bbw.odoo.com", str "missing", str "admin", [], str "iot.configuration",
    str "xmlrpc_submit_print_data"⟩

/-- Odoo answers with a fault. -/
def faultyWorld : World where
  serverProxy _ := none
  answer _ _ := .error (.fault (str "1") (str "database \"missing\" does not exist")
    (str "<Fault 1: 'database \"missing\" does not exist'>"))
  now _ := noon

/-- The fault leaves `authenticate`, `submit_print_data` and `check_readiness`. -/
theorem fault_escapes :
    ¬ AuthenticateContract (authenticate faultyWorld ⟨.fromSettings sampleSettings, []⟩) ∧
    ¬ SubmitContract (submitPrintData faultyWorld [] ⟨.fromSettings sampleSettings, []⟩) ∧
    ¬ ReadinessContract (checkReadiness faultyWorld (some (.ofInt 300))
      ⟨.fromSettings sampleSettings, []⟩) := by
  refine ⟨?_, ?_, ?_⟩
  · rintro ⟨⟨message, heq⟩, -⟩
    cases heq
  · rintro ⟨message, heq⟩
    cases heq
  · rintro ⟨message, heq⟩
    cases heq

end EdgeBridge.Odoo
