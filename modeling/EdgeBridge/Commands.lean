import EdgeBridge.Foundation.Json

/-!
# Commands for the PLC

The validator of `command_parser.py`, and what the MQTT client makes of a command
and of a readiness value.  The answer of the broker library is an input.
-/

namespace EdgeBridge

open Foundation

structure PlcCommand where
  key : Text
  value : Text
  deriving DecidableEq

def printJobKeys : List Text := [str "messt01", str "messt02", str "messt03"]

def tableControlKeys : List Text := [str "T01", str "T02", str "T03"]

def tableControlValues : List Text := [str "P", str "R", str "D"]

def loosePacketValues : List Text := [str "FT01", str "FT02", str "FT03"]

/-- The error is the text of a `CommandValidationError`. -/
def validatePlcCommand : PyValue → Except Text PlcCommand
  | .dict [(key, .text value)] =>
      if printJobKeys.contains key then
        if value.isEmpty then .error (key ++ str " value must be non-empty")
        else .ok ⟨key, value⟩
      else if tableControlKeys.contains key then
        if tableControlValues.contains value then .ok ⟨key, value⟩
        else .error (key ++ str " value must be P, R, or D")
      else if key = str "LP" then
        if loosePacketValues.contains value then .ok ⟨key, value⟩
        else .error (str "LP value must be FT01, FT02, or FT03")
      else .error (str "Unsupported command key: " ++ key)
  | .dict [_] => .error (str "Payload value must be a string")
  | .dict _ => .error (str "Payload must contain exactly one top-level key")
  | _ => .error (str "Payload must be a JSON object")

/-- `PLC_JSON_SEPARATORS`. -/
def plcJsonSeparators : Json.Separators :=
  ⟨[], str " ", Json.compactSeparators.itemPad_space, Json.defaultSeparators.keyPad_space⟩

def PlcCommand.content (command : PlcCommand) : PyValue :=
  .dict [(command.key, .text command.value)]

/-- `json.dumps(command, separators=PLC_JSON_SEPARATORS)`; texts are always encoded. -/
def PlcCommand.payload (command : PlcCommand) : Text :=
  Json.render plcJsonSeparators command.content

/-! ## Publishing -/

structure PublishResult where
  success : Bool
  rc : Int
  mid : Option Int
  topic : Text
  payload : Text
  error : Option Text

/-- What `client.publish` did: an exception with its text, or the answer. -/
inductive ClientPublish where
  | raised (text : Text)
  | answered (rc : Int) (mid : Option Int)

/-- `mqtt.MQTT_ERR_NO_CONN`. -/
def mqttErrNoConn : Int := 4

/-- `mqtt.MQTT_ERR_UNKNOWN`. -/
def mqttErrUnknown : Int := 13

def brokerUnavailable : Text := str "MQTT broker unavailable"

def ClientPublish.result (topic payload : Text) : ClientPublish → PublishResult
  | .raised text => ⟨false, mqttErrUnknown, none, topic, payload, some text⟩
  | .answered rc mid =>
      ⟨rc == 0, rc, mid, topic, payload,
        if rc == 0 then none else some (str "MQTT publish rc=" ++ Text.decimalInt rc)⟩

def publishPlcCommand (topic : Text) (command : PlcCommand) (connected : Bool)
    (answer : ClientPublish) : PublishResult :=
  if connected then answer.result topic command.payload
  else ⟨false, mqttErrNoConn, none, topic, command.payload, some brokerUnavailable⟩

theorem publishPlcCommand_texts (topic : Text) (command : PlcCommand) (connected : Bool)
    (answer : ClientPublish) :
    (publishPlcCommand topic command connected answer).topic = topic ∧
      (publishPlcCommand topic command connected answer).payload = command.payload := by
  unfold publishPlcCommand
  split
  · cases answer with
    | raised text => exact ⟨rfl, rfl⟩
    | answered rc mid => exact ⟨rfl, rfl⟩
  · exact ⟨rfl, rfl⟩

def publishReadiness (topic : Text) (brValue : Int) (answer : ClientPublish) :
    PublishResult :=
  answer.result topic
    (Json.render Json.compactSeparators (.dict [(str "BR", .int brValue)]))

/-- `_refresh_ready_before_print_job_start` with the snapshot of the readiness monitor. -/
def refreshReadyBeforePrintJobStart (topic : Text) (command : PlcCommand)
    (readinessState : Text) (connected : Bool) (answer : ClientPublish) :
    Option PublishResult :=
  if command.key ≠ str "messt01" then none
  else if readinessState ≠ str "READY" then none
  else if !connected then none
  else some (publishReadiness topic 1 answer)

end EdgeBridge
