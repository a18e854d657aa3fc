import QcloudIot.Misc.Run
import QcloudIot.Mqtt.Yield

/-!
# The application

The calls that an application makes on a client, each run to its end: connecting, disconnecting,
yielding, requests, and switching auto reconnect on or off. The surroundings decide what the peer
sends and how every connection attempt, read and write ends.
-/

namespace QcloudIot.Mqtt

/-- `qcloud_iot_mqtt_set_autoreconnect` (`mqtt_client.c:564-573`). -/
def qcloudIotMqttSetAutoreconnect (value : Bool) : Sdk Int := do
  setClient fun c => { c with options := { c.options with
    autoConnectEnable := if value then 1 else 0 } }
  return qcloudRetSuccess

/-- A call of the application; a yield is followed for its first `fuel` rounds. -/
inductive ApiCall where
  | connect (params : ConnectParams)
  | disconnect
  | yield (fuel timeoutMs : Nat)
  | setAutoreconnect (value : Bool)
  | publish (topicName : CStr) (params : PublishParams)
  | subscribe (topicFilter : CStr) (params : SubscribeParams)
  | unsubscribe (topicFilter : CStr)
  deriving DecidableEq, Repr

/-- The function that is called. -/
def ApiCall.prog : ApiCall → Sdk Int
  | .connect params => qcloudIotMqttConnect params
  | .disconnect => qcloudIotMqttDisconnect
  | .yield fuel timeoutMs => qcloudIotMqttYield fuel timeoutMs
  | .setAutoreconnect value => qcloudIotMqttSetAutoreconnect value
  | .publish topicName params => qcloudIotMqttPublish topicName params
  | .subscribe topicFilter params => qcloudIotMqttSubscribe topicFilter params
  | .unsubscribe topicFilter => qcloudIotMqttUnsubscribe topicFilter

/-- An application at work. -/
def application : Machine World ApiCall := ⟨fun w call => (call.prog.run w).2⟩

end QcloudIot.Mqtt
