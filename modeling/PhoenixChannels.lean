import PhoenixChannels.Channel.Lemmas.Arrivals
import PhoenixChannels.Channel.Theorems
import PhoenixChannels.Json.Theorems
import PhoenixChannels.Message.Theorems
import PhoenixChannels.Presences.Lists
import PhoenixChannels.Presences.Theorems
import PhoenixChannels.Socket.Lemmas.Arrivals
import PhoenixChannels.Statuses.Theorems
import PhoenixChannels.System.Requests
import PhoenixChannels.System.Theorems
