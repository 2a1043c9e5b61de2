import PhoenixChannels.Lib.Machine
import PhoenixChannels.Statuses.State

/-!
# A task and the observers of its status

One task sets an `ObservableStatus`, in the middle of whatever else it does. Between the two halves of
`set` it does nothing else, but all others may read.
-/

namespace PhoenixChannels.Statuses

/-- A task that sets a status: the status that it has set last, the errors that it has sent so far, and
which steps it takes itself. -/
structure Writer (τ ℓ σ ε : Type) where
  machine : Machine τ ℓ
  status : τ → σ
  errors : τ → List ε
  own : ℓ → Bool

/-- A user of `Statuses`: the position of its receiver, what it has read without a gap, and what it
takes for the status. -/
structure Observer (σ ε : Type) where
  next : Nat
  read : List (Except ε σ)
  known : Option σ

structure World (τ σ ε : Type) where
  task : τ
  status : ObservableStatus σ ε
  /-- What `set` has swapped in, and not sent yet. -/
  unsent : Option σ
  observers : List (Observer σ ε)

inductive Label (ℓ : Type)
  | task (label : ℓ)
  /-- `set` goes on. -/
  | send
  | subscribe
  /-- An observer calls `get`. -/
  | get (observer : Nat)
  /-- An observer calls `Statuses::status`. -/
  | read (observer : Nat)

/-! ## Observers -/

variable {τ ℓ σ ε : Type} {status : ObservableStatus σ ε} {o o' : Observer σ ε}

/-- What an observer does with what it receives. After `MissedStatuses` it knows nothing. -/
def Observer.receive (o : Observer σ ε) :
    Received (Except ε σ) × Nat → Option (Observer σ ε)
  | (.message (.ok status), next) => some ⟨next, o.read ++ [.ok status], some status⟩
  | (.message (.error error), next) => some ⟨next, o.read ++ [.error error], o.known⟩
  | (.lagged _, next) => some ⟨next, [], none⟩
  | (.empty, _) => none

/-- What becomes of an observer when it receives. -/
inductive Reads (status : ObservableStatus σ ε) (o : Observer σ ε) : Observer σ ε → Prop
  | status {s} : status.tx.sent[o.next]? = some (.ok s) →
      Reads status o ⟨o.next + 1, o.read ++ [.ok s], some s⟩
  | error {e} : status.tx.sent[o.next]? = some (.error e) →
      Reads status o ⟨o.next + 1, o.read ++ [.error e], o.known⟩
  | missed {next} : next ≤ status.tx.sent.length → Reads status o ⟨next, [], none⟩

theorem reads_of_receive (h : o.receive (status.recv o.next) = some o') : Reads status o o' := by
  rcases hrecv : status.recv o.next with ⟨received, next⟩
  rw [hrecv] at h
  cases received with
  | empty => cases h
  | lagged missed =>
      cases h
      exact .missed (BroadcastQueue.recv_lagged_eq hrecv).2
  | message m =>
      obtain ⟨hsent, rfl⟩ := BroadcastQueue.recv_message_eq hrecv
      cases m with
      | ok s =>
          cases h
          exact .status hsent
      | error e =>
          cases h
          exact .error hsent

/-! ## Steps -/

namespace World

/-- What the task sends and sets when it steps to `t`. -/
def write [DecidableEq σ] (W : Writer τ ℓ σ ε) (w : World τ σ ε) (t : τ) : World τ σ ε :=
  let errors := (W.errors t).drop (W.errors w.task).length
  let (status, unsent) := (w.status.errors errors).swap (W.status t)
  { w with task := t, status, unsent }

def taskStep [DecidableEq σ] (W : Writer τ ℓ σ ε) (w : World τ σ ε) (label : ℓ) :
    Option (World τ σ ε) :=
  if W.own label then
    match w.unsent with
    | none => (W.machine.step w.task label).map (w.write W)
    | some _ => none
  else (W.machine.step w.task label).map fun t => { w with task := t }

def sendStep (w : World τ σ ε) : Option (World τ σ ε) :=
  w.unsent.map fun status => { w with status := w.status.send status, unsent := none }

def subscribeStep (w : World τ σ ε) : World τ σ ε :=
  { w with observers := w.observers ++ [⟨w.status.subscribe, [], none⟩] }

def getStep (w : World τ σ ε) (i : Nat) : Option (World τ σ ε) :=
  w.observers[i]?.map fun o =>
    { w with observers := w.observers.set i { o with known := some w.status.get } }

def readStep (w : World τ σ ε) (i : Nat) : Option (World τ σ ε) :=
  (w.observers[i]?.bind fun o => o.receive (w.status.recv o.next)).map fun o =>
    { w with observers := w.observers.set i o }

def step [DecidableEq σ] (W : Writer τ ℓ σ ε) (w : World τ σ ε) : Label ℓ → Option (World τ σ ε)
  | .task label => w.taskStep W label
  | .send => w.sendStep
  | .subscribe => some w.subscribeStep
  | .get i => w.getStep i
  | .read i => w.readStep i

end World

/-- The task with the observers of its status. -/
def Writer.observed [DecidableEq σ] (W : Writer τ ℓ σ ε) : Machine (World τ σ ε) (Label ℓ) where
  step := World.step W

/-- `ObservableStatus::new`, when the task is started in `t`. -/
def Writer.start (W : Writer τ ℓ σ ε) (t : τ) : World τ σ ε where
  task := t
  status := .new (W.status t)
  unsent := none
  observers := []

/-! ## What a step can do -/

/-- All steps of a task with observers. -/
inductive Step [DecidableEq σ] (W : Writer τ ℓ σ ε) (w : World τ σ ε) :
    Label ℓ → World τ σ ε → Prop
  | own {label t} : W.own label = true → w.unsent = none → W.machine.step w.task label = some t →
      Step W w (.task label) (w.write W t)
  | other {label t} : W.own label = false → W.machine.step w.task label = some t →
      Step W w (.task label) { w with task := t }
  | send {s} : w.unsent = some s →
      Step W w .send { w with status := w.status.send s, unsent := none }
  | subscribe : Step W w .subscribe w.subscribeStep
  | get {i old} : w.observers[i]? = some old →
      Step W w (.get i) { w with
        observers := w.observers.set i { old with known := some w.status.get } }
  | read {i old new} : w.observers[i]? = some old → Reads w.status old new →
      Step W w (.read i) { w with observers := w.observers.set i new }

theorem step_cases [DecidableEq σ] {W : Writer τ ℓ σ ε} {w w' : World τ σ ε} {label : Label ℓ}
    (h : W.observed.step w label = some w') : Step W w label w' := by
  cases label with
  | task label =>
      simp only [Writer.observed, World.step, World.taskStep] at h
      split at h
      · split at h
        · obtain ⟨t, ht, rfl⟩ := Option.map_eq_some_iff.mp h
          exact .own ‹_› ‹_› ht
        · cases h
      · obtain ⟨t, ht, rfl⟩ := Option.map_eq_some_iff.mp h
        exact .other (by simp_all) ht
  | send =>
      obtain ⟨status, hunsent, rfl⟩ := Option.map_eq_some_iff.mp h
      exact .send hunsent
  | subscribe =>
      cases h
      exact .subscribe
  | get i =>
      obtain ⟨o, ho, rfl⟩ := Option.map_eq_some_iff.mp h
      exact .get ho
  | read i =>
      obtain ⟨o', ho', rfl⟩ := Option.map_eq_some_iff.mp h
      obtain ⟨o, ho, hreceive⟩ := Option.bind_eq_some_iff.mp ho'
      exact .read ho (reads_of_receive hreceive)

end PhoenixChannels.Statuses
