import PhoenixChannels.Channel.Lemmas.Statuses
import PhoenixChannels.Channel.Theorems
import PhoenixChannels.Socket.Lemmas.Statuses

/-!
# Theorems on statuses

What the users of `Channel::statuses` and `Socket::statuses` see of the listeners, however their reads
fall among the steps of the listeners.
-/

namespace PhoenixChannels

open Machine Statuses

/-! ## Channels -/

namespace Channel

variable {ok : Statuses.World World Status Payload → Statuses.Label Label → Prop}
variable {listener : Listener} {before : Socket.State} {seen : Nat}
variable {ls : List (Statuses.Label Label)} {w : Statuses.World World Status Payload}
variable {o : Observer Status Payload}

theorem expects_start : Expects none (start listener before seen) where
  status := nofun
  rejected := nofun
  agrees := .selecting rfl (fun _ h => h) List.not_mem_nil

/-- Whoever reads the statuses of a channel sees its listener go along the graph, with each rejection
between `Joining` and `WaitingToRejoin`. Who has called `Channel::status` since it subscribed or missed
something, and has nothing left to read, knows the status. -/
theorem observesChannel (h : Run writer.observed ok (writer.start (start listener before seen)) ls w)
    (ho : o ∈ w.observers) : Observes published writer w o :=
  observes_of_run frames links expects_start h ho

/-- The server rejects a join while an observer reads along. -/
def watchRejection : List (Statuses.Label Label) :=
  [.subscribe, .get 0] ++ sendJoin.map .task ++ [.send, .read 0]
    ++ (polls (joinResult 1 (.error (.rejected .empty))) 2 ++ ([.publish] : List Label)).map .task
    ++ [.send, .read 0, .read 0]

theorem observesChannel_rejection :
    ∃ w o, Run writer.observed Free (writer.start lobbyStart) watchRejection w ∧ o ∈ w.observers ∧
      (o.read.map Except.isOk, o.known) = ([true, false, true], some (.waitingToRejoin 1)) ∧
      Observes published writer w o := by
  obtain ⟨w, hrun, hw⟩ := exists_run (M := writer.observed)
    (show (Machine.exec _ Free (writer.start lobbyStart) watchRejection).map (fun w =>
      w.observers.map fun o => (o.read.map Except.isOk, o.known)) =
        some [([true, false, true], some (.waitingToRejoin 1))] by decide +kernel)
  obtain ⟨o, ho, hread⟩ := List.mem_map.mp (hw ▸ List.mem_singleton_self _)
  exact ⟨w, o, hrun, ho, hread, observesChannel hrun ho⟩

end Channel

/-! ## Sockets -/

namespace Socket

variable {strategy : Option (Nat → Duration)}
variable {ok : Statuses.World World Status WebSocketError → Statuses.Label Label → Prop}
variable {ls : List (Statuses.Label Label)} {w : Statuses.World World Status WebSocketError}
variable {o : Observer Status WebSocketError}

/-- Whoever reads the statuses of a socket sees its listener go along the graph, with the errors of
failed connects before it waits to reconnect. Who has called `Socket::status` since it subscribed or
missed something, and has nothing left to read, knows the status. -/
theorem observesSocket (h : Run (writer strategy).observed ok ((writer strategy).start World.init) ls w)
    (ho : o ∈ w.observers) : Observes published (writer strategy) w o := by
  have hstart : Expects none World.init := ⟨nofun, nofun, .selecting rfl (by simp)⟩
  exact observes_of_run frames links hstart h ho

/-- A connect fails, and the reconnect after it succeeds. -/
def watchReconnect : List (Statuses.Label Label) :=
  [.subscribe, .get 0]
    ++ (iterate (.stateCommand (.connect ⟨0, 5000000000, 0⟩) (.error .io))).map .task
    ++ [.send, .read 0, .read 0] ++ (iterate (.sleepElapsed .connected)).map .task ++ [.send, .read 0]

theorem observesSocket_reconnect :
    ∃ w o, Run (writer none).observed Free ((writer none).start World.init) watchReconnect w ∧
      o ∈ w.observers ∧ (o.read.map Except.isOk, o.known) = ([false, true, true], some .connected) ∧
      Observes published (writer none) w o := by
  obtain ⟨w, hrun, hw⟩ := exists_run (M := (writer none).observed)
    (show (Machine.exec _ Free ((writer none).start World.init) watchReconnect).map (fun w =>
      w.observers.map fun o => (o.read.map Except.isOk, o.known)) =
        some [([false, true, true], some .connected)] by decide +kernel)
  obtain ⟨o, ho, hread⟩ := List.mem_map.mp (hw ▸ List.mem_singleton_self _)
  exact ⟨w, o, hrun, ho, hread, observesSocket hrun ho⟩

end Socket

end PhoenixChannels
