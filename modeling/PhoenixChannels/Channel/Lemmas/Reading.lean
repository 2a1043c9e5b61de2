import PhoenixChannels.Channel.Lemmas.Arrivals

/-!
# How a joined listener comes to its broadcasts

The branch of the broadcasts is polled last. A listener that keeps up never disables it, and comes
to it by itself.
-/

namespace PhoenixChannels.Channel

variable {env : Surroundings} {w w' : World} {joined : Joined} {read : Option TxId}
variable {rest disabled : List Branch} {branch : Branch} {state : State}

/-! ## The branch of the broadcasts -/

/-- The branch of the broadcasts was disabled in the `select!`. -/
def Task.broadcastDisabled : Task → Bool
  | selecting _ _ disabled => .broadcast ∈ disabled
  | _ => false

theorem proceed_broadcastDisabled {flow : Flow} :
    (w.proceed flow).task.broadcastDisabled = false := by
  cases flow <;> rfl

/-- A receiver that does not lag disables the branch only when its channel is closed. -/
theorem PollStep.broadcastDisabled (h : PollStep env w w' read) (hj : w.task.joined? = some joined)
    (hlength : (env.broadcasts joined.broadcastRx.tx).sent.length ≤
      joined.broadcastRx.next + (env.broadcasts joined.broadcastRx.tx).capacity)
    (hopen : env.broadcastClosed joined.broadcastRx.tx = false)
    (hw : w.task.broadcastDisabled = false) : w'.task.broadcastDisabled = false := by
  cases h with
  | breakOk => rfl
  | round htask | pending htask =>
      rw [htask] at hw
      exact hw
  | @mismatch state branch rest disabled w₁ state' htask hmismatch hpoll =>
      rw [htask] at hw hj
      rw [joined?_selecting] at hj
      have hbranch : branch ≠ .broadcast := by
        rintro rfl
        cases state <;> cases hj
        simp only [World.pollBranch] at hpoll
        rcases BroadcastQueue.recv_cases hlength with ⟨b, hrecv, _⟩ | hrecv
        · rw [hrecv] at hpoll
          cases hpoll
        · rw [hrecv, hopen] at hpoll
          cases hpoll
      simpa [Task.broadcastDisabled, Ne.symm hbranch] using hw
  | ready => exact proceed_broadcastDisabled

theorem PollStep.broadcastDisabled_answered {joining : Joining} (h : PollStep env w w' read)
    (htask : w.task = .selecting (.joining joining) (.socketJoined :: rest) disabled)
    (hj : w'.task.joined? = some joined) : w'.task.broadcastDisabled = false := by
  cases h with
  | breakOk => rfl
  | round htask' => cases htask.symm.trans htask'
  | pending htask' =>
      cases htask.symm.trans htask'
      cases hj
  | mismatch htask' hmismatch =>
      cases htask.symm.trans htask'
      cases hmismatch
      cases hj
  | ready => exact proceed_broadcastDisabled

/-! ## The way to the branch -/

def Task.commandsLeft : Task → Nat
  | calling (.cast _ _ _) | calling (.call _ _ _) => 1
  | _ => 0

/-- The calls and casts that the listener has yet to send to the socket. -/
def World.commandsLeft (w : World) : Nat := w.sendCommandRx.length + w.task.commandsLeft

/-- The steps that the listener takes until it polls the branch of the broadcasts, when nothing else
is ready. -/
def Task.stepsLeft : Task → Nat
  | selecting _ rest _ => if .broadcast ∈ rest then rest.length else rest.length + 8
  | publishing _ => 8
  | calling _ => 9
  | _ => 0

theorem poll_isSome (env : Surroundings) (htask : w.task = .selecting state rest disabled) :
    ∃ w' read, w.poll env = some (w', read) := by
  unfold World.poll
  rw [htask]
  cases rest with
  | nil => simp only []; split <;> exact ⟨_, _, rfl⟩
  | cons branch rest => simp only []; split <;> exact ⟨_, _, rfl⟩

/-- A listener that is joined as before, with its broadcasts enabled. -/
structure StaysJoined (joined : Joined) (w w' : World) : Prop where
  member : w'.task.joined? = some joined
  enabled : w'.task.broadcastDisabled = false
  commands : w'.commandsLeft = w.commandsLeft

/-- What a poll does to a joined listener that has not come to the branch of the broadcasts yet. -/
inductive ReadingCase (env : Surroundings) (w : World) (joined : Joined) (w' : World)
    (read : Option TxId) : Prop
  /-- It is not joined any more. -/
  | left : w'.task.joined? = none → ReadingCase env w joined w' read
  /-- Nothing was ready. -/
  | polled : StaysJoined joined w w' → read = none → w'.stateCommandRx = w.stateCommandRx →
      w'.sendCommandRx = w.sendCommandRx → w'.task.stepsLeft < w.task.stepsLeft →
      ReadingCase env w joined w' read
  /-- It handles a command. -/
  | command : StaysJoined joined w w' → read = none →
      w'.stateCommandRx.length + w'.sendCommandRx.length + 1 =
        w.stateCommandRx.length + w.sendCommandRx.length →
      w'.task.stepsLeft ≤ 9 → 0 < w.task.stepsLeft → ReadingCase env w joined w' read
  /-- It handles a push. -/
  | push {push : Push} {waiting : List Push} : StaysJoined joined w w' →
      read = some joined.pushRx → env.pushes joined.pushRx = push :: waiting →
      w'.stateCommandRx = w.stateCommandRx → w'.sendCommandRx = w.sendCommandRx →
      w'.task.stepsLeft ≤ 9 → 0 < w.task.stepsLeft → ReadingCase env w joined w' read

theorem stepsLeft_pos (htask : w.task = .selecting state (branch :: rest) disabled) :
    0 < w.task.stepsLeft := by
  rw [htask, Task.stepsLeft]
  split <;> simp

theorem stepsLeft_lt {disabled' : List Branch} {state' : State} (hbranch : branch ≠ .broadcast) :
    (Task.selecting state' rest disabled').stepsLeft <
      (Task.selecting state (branch :: rest) disabled).stepsLeft := by
  have hmem : .broadcast ∈ branch :: rest ↔ .broadcast ∈ rest := by simp [Ne.symm hbranch]
  simp only [Task.stepsLeft, hmem]
  split <;> simp

theorem StaysJoined.of_selecting {disabled' : List Branch} {seen : Nat} {rest' : List Branch}
    (htask : w.task = .selecting state rest disabled) (henabled : .broadcast ∉ disabled') :
    StaysJoined joined w { w with task := .selecting (.joined joined) rest' disabled', seen } where
  member := rfl
  enabled := decide_eq_false henabled
  commands := by simp [World.commandsLeft, Task.commandsLeft, htask]

theorem PollStep.reading (h : PollStep env w w' read)
    (htask : w.task = .selecting (.joined joined) rest disabled)
    (henabled : .broadcast ∉ disabled) (hrest : rest.head? ≠ some .broadcast) :
    ReadingCase env w joined w' read := by
  cases h with
  | breakOk => exact .left rfl
  | @round state disabled' htask' =>
      cases htask.symm.trans htask'
      have hmem : Branch.broadcast ∈
          (State.joined joined).branches.filter fun branch => branch ∉ disabled := by
        simp [State.branches, henabled]
      have hlength : ((State.joined joined).branches.filter fun branch => branch ∉ disabled).length
          ≤ 7 := List.length_filter_le _ _
      refine .polled (.of_selecting htask henabled) rfl rfl rfl ?_
      rw [htask, Task.stepsLeft, Task.stepsLeft, if_pos hmem, if_neg (by simp)]
      exact Nat.lt_succ_of_le hlength
  | @pending state branch rest disabled' htask' =>
      cases htask.symm.trans htask'
      have hbranch : branch ≠ .broadcast := by simpa using hrest
      exact .polled (.of_selecting htask henabled) rfl rfl rfl (htask ▸ stepsLeft_lt hbranch)
  | @mismatch state branch rest disabled' w₁ state' htask' hmismatch =>
      cases htask.symm.trans htask'
      have hbranch : branch ≠ .broadcast := by simpa using hrest
      have henabled' : .broadcast ∉ branch :: disabled := by simp [Ne.symm hbranch, henabled]
      cases hmismatch with
      | lagged | closed =>
          exact .polled (.of_selecting htask henabled') rfl rfl rfl (htask ▸ stepsLeft_lt hbranch)
      | broadcastLagged => exact absurd rfl hbranch
  | @ready state branch rest disabled' w₁ flow htask' hready =>
      cases htask.symm.trans htask'
      have hpos := stepsLeft_pos htask
      have hnone : w.task.commandsLeft = 0 := by rw [htask]; rfl
      cases hready with
      | shutdown | left => exact .left rfl
      | connectivity =>
          refine .left ?_
          rw [proceed_joined?]
          exact connectivityChanged_joined?
      | @stateCommand _ command waiting hrx =>
          cases command with
          | join =>
              refine .command ⟨rfl, rfl, ?_⟩ rfl ?_ (Nat.le_succ _) hpos
              · rw [World.commandsLeft, World.commandsLeft, hnone]
                rfl
              · simp [World.proceed, updateState, join, hrx, Nat.add_right_comm]
          | leave =>
              refine .command ⟨rfl, rfl, ?_⟩ rfl ?_ (Nat.le_refl _) hpos
              · rw [World.commandsLeft, World.commandsLeft, hnone]
                rfl
              · simp [World.proceed, updateState, leave, hrx, Nat.add_right_comm]
      | @sendCommand _ command waiting hrx =>
          cases command with
          | cast | call =>
              refine .command ⟨rfl, rfl, ?_⟩ rfl ?_ (Nat.le_refl _) hpos
              · rw [World.commandsLeft, World.commandsLeft, hnone, hrx]
                rfl
              · simp [World.proceed, send, hrx, Nat.add_assoc]
      | @push _ push waiting hpushes =>
          by_cases hclose : push.eventPayload.event = .phoenix .close
          · refine .left ?_
            simp [World.proceed, pushReceived, hclose, Rejoin.wait, Task.joined?]
          · have hflow : pushReceived env.now joined push =
                (.joined joined, [.event push.eventPayload]) := by
              simp [pushReceived, hclose]
            rw [hflow]
            refine .push ⟨rfl, rfl, ?_⟩ rfl hpushes rfl rfl (Nat.le_succ _) hpos
            rw [World.commandsLeft, World.commandsLeft, hnone]
            rfl
      | broadcast => exact absurd rfl hrest

end PhoenixChannels.Channel
