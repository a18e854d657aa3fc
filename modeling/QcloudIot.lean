import QcloudIot.Misc.Prog
import QcloudIot.Misc.Run
import QcloudIot.Mqtt.Types
import QcloudIot.Mqtt.Platform
import QcloudIot.Mqtt.Codec
import QcloudIot.Mqtt.Net
import QcloudIot.Mqtt.Requests
import QcloudIot.Mqtt.Topic
import QcloudIot.Mqtt.Handlers
import QcloudIot.Mqtt.Connect
import QcloudIot.Mqtt.Yield
import QcloudIot.Mqtt.Proofs.TopicMatch
import QcloudIot.Mqtt.Proofs.Send
import QcloudIot.Mqtt.Proofs.Requests
import QcloudIot.Mqtt.Proofs.RequestEffects
import QcloudIot.Misc.Outcome
import QcloudIot.Mqtt.Session
import QcloudIot.Mqtt.Proofs.Inbound
import QcloudIot.Misc.Sweep
import QcloudIot.Mqtt.Proofs.Sessions
import QcloudIot.Mqtt.Proofs.PublishOutcome
import QcloudIot.Misc.Ledger
import QcloudIot.Mqtt.Proofs.FilterOwnership
import QcloudIot.Mqtt.Proofs.SubscriptionTable
import QcloudIot.Mqtt.Proofs.Upkeep
import QcloudIot.Mqtt.Proofs.Link
import QcloudIot.Mqtt.Proofs.Arrival
import QcloudIot.Mqtt.Proofs.Accepted
import QcloudIot.Mqtt.Proofs.KeepAlive
import QcloudIot.Misc.Backoff
import QcloudIot.Mqtt.Application
import QcloudIot.Mqtt.Proofs.Backoff
import QcloudIot.Misc.Ring
import QcloudIot.Misc.Queue
import QcloudIot.Utils.RingBuff
import QcloudIot.Utils.Proofs.RingBuff
import QcloudIot.Misc.Calendar
import QcloudIot.Utils.Timer
import QcloudIot.Utils.LinkedList
import QcloudIot.Utils.Proofs.LinkedList
import QcloudIot.Gateway.ChangeAck
import QcloudIot.Json.Proofs.Separators
import QcloudIot.Gateway.Proofs.ChangeAck
import QcloudIot.Network.AtClient
import QcloudIot.Network.Esp8266
import QcloudIot.Network.Proofs.Esp8266
import QcloudIot.Network.AtSession
import QcloudIot.Network.Proofs.AtSession
import QcloudIot.Utils.Proofs.Timer
import QcloudIot.Mqtt.Proofs.PacketLength
import QcloudIot.Misc.Schrage
import QcloudIot.Utils.Rand
import QcloudIot.Utils.Proofs.Rand
import QcloudIot.Misc.Chain
import QcloudIot.Coap.OptionList
import QcloudIot.Coap.Proofs.OptionList
import QcloudIot.Json.Proofs.Frame
import QcloudIot.Misc.Delimited
import QcloudIot.Log.Uploader
import QcloudIot.Log.Proofs.Append
import QcloudIot.Log.Posting
import QcloudIot.Log.Proofs.Posting
import QcloudIot.Log.Proofs.Unsent
import QcloudIot.Network.Websocket
import QcloudIot.Network.AtSocket
import QcloudIot.Network.Proofs.Websocket
import QcloudIot.Network.Proofs.AtSocketTable
import QcloudIot.Network.Proofs.AtSocketStream
import QcloudIot.Mqtt.Proofs.Delivery
import QcloudIot.Mqtt.Proofs.PublishParser
import QcloudIot.Json.Parser
import QcloudIot.Json.Token
import QcloudIot.Json.InPlace
import QcloudIot.Json.Grammar
import QcloudIot.Json.Proofs.Scanner
import QcloudIot.Json.Proofs.InPlace
import QcloudIot.Misc.Balanced
import QcloudIot.Json.Proofs.Members
import QcloudIot.Json.Proofs.Lookup
import QcloudIot.Json.Proofs.Dotted
import QcloudIot.Shadow.Manager
import QcloudIot.Shadow.Properties
import QcloudIot.Shadow.Proofs.Registry
import QcloudIot.Shadow.Proofs.Answers
import QcloudIot.Shadow.Request
import QcloudIot.Shadow.Proofs.Request
import QcloudIot.Misc.Size
import QcloudIot.Coap.Message
import QcloudIot.Coap.Proofs.RoundTrip
import QcloudIot.Misc.Text
import QcloudIot.Misc.Early
import QcloudIot.Http.Client
import QcloudIot.Http.Proofs.Reading
import QcloudIot.Http.Proofs.Head
import QcloudIot.Http.Proofs.ContentLength
import QcloudIot.Coap.Proofs.Room
import QcloudIot.Coap.Proofs.Datagram
import QcloudIot.Coap.Client
import QcloudIot.Coap.Proofs.Dispatch
import QcloudIot.Coap.Proofs.Lifecycle
import QcloudIot.Mqtt.Proofs.PublishRoundTrip
import QcloudIot.Mqtt.Proofs.RemainingLength
import QcloudIot.Mqtt.Proofs.Framing
import QcloudIot.Misc.Access
import QcloudIot.Mqtt.Proofs.AckParsers
import QcloudIot.Mqtt.Proofs.WholeTopic
import QcloudIot.Misc.Window
import QcloudIot.Mqtt.Proofs.Redelivery
import QcloudIot.Mqtt.Proofs.Serializers
import QcloudIot.Misc.Blocks
import QcloudIot.Utils.Md5
import QcloudIot.Utils.Proofs.Md5
import QcloudIot.Http.Channel
import QcloudIot.Ota.Announcement
import QcloudIot.Json.Proofs.Token
import QcloudIot.Ota.Client
import QcloudIot.Ota.Proofs.Announcement
import QcloudIot.Ota.Proofs.Firmware
import QcloudIot.Ota.Proofs.Progress
import QcloudIot.Json.Proofs.Decimal
import QcloudIot.Json.Proofs.Places
import QcloudIot.Shadow.Document
import QcloudIot.Shadow.Proofs.Document
import QcloudIot.Shadow.Proofs.RoundTrip
import QcloudIot.Shadow.Proofs.Report
import QcloudIot.Gateway.Types
import QcloudIot.Gateway.Messages
import QcloudIot.Gateway.Subdev
import QcloudIot.Gateway.Proofs.Replies
import QcloudIot.Gateway.Proofs.Sessions
import QcloudIot.Gateway.Proofs.Acknowledgement
import QcloudIot.Gateway.Proofs.Changes
import QcloudIot.Resource.Client
import QcloudIot.Resource.Proofs.Channels
import QcloudIot.Resource.Proofs.Task
import QcloudIot.Resource.Proofs.Messages
import QcloudIot.Resource.Proofs.Progress
import QcloudIot.Rrpc.Client
import QcloudIot.Rrpc.Proofs.Replies
import QcloudIot.Misc.Base64
import QcloudIot.Utils.Base64
import QcloudIot.Utils.Proofs.Base64
import QcloudIot.Http.Url
import QcloudIot.Http.Proofs.Url
import QcloudIot.Http.Request
import QcloudIot.Http.Proofs.BasicAuth
import QcloudIot.Http.Proofs.Request
import QcloudIot.Dynreg.Client
import QcloudIot.Dynreg.Proofs.Registration
import QcloudIot.Ssh.Proxy
import QcloudIot.Ssh.Proofs.Sessions
import QcloudIot.Ssh.Proofs.Relay
import QcloudIot.Services.Queries
import QcloudIot.Services.Proofs.RemoteConfig
import QcloudIot.Services.Proofs.Queries
