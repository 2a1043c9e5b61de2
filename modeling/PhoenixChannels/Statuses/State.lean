import PhoenixChannels.Lib.BroadcastQueue

/-!
# Observable statuses

`rust/observable_status.rs`: a status that one task sets and everybody reads, with a broadcast of its
changes and of the errors of that task.
-/

namespace PhoenixChannels

/-- The status in its `ArcSwap`, and `tx`. -/
structure ObservableStatus (σ ε : Type) where
  status : σ
  tx : BroadcastQueue (Except ε σ)

namespace ObservableStatus

variable {σ ε : Type}

def new (status : σ) : ObservableStatus σ ε where
  status
  tx := { capacity := BroadcastQueue.roundedCapacity 10, sent := [] }

def get (o : ObservableStatus σ ε) : σ := o.status

/-- The first half of `set`: `swap`, with what is still to be sent. -/
def swap [DecidableEq σ] (o : ObservableStatus σ ε) (status : σ) : ObservableStatus σ ε × Option σ :=
  ({ o with status }, if o.status ≠ status then some status else none)

/-- The second half of `set`: `tx.send(Ok(status))`. -/
def send (o : ObservableStatus σ ε) (status : σ) : ObservableStatus σ ε :=
  { o with tx := o.tx.send (.ok status) }

def error (o : ObservableStatus σ ε) (error : ε) : ObservableStatus σ ε :=
  { o with tx := o.tx.send (.error error) }

/-- The position of a new `Statuses`. -/
def subscribe (o : ObservableStatus σ ε) : Nat := o.tx.subscribe

/-- One `Statuses::status` at the position `next`; a `lagged` is returned as `MissedStatuses`. -/
def recv (o : ObservableStatus σ ε) (next : Nat) : Received (Except ε σ) × Nat := o.tx.recv next

/-- The errors of one handler. -/
def errors (o : ObservableStatus σ ε) (errors : List ε) : ObservableStatus σ ε :=
  errors.foldl error o

@[simp] theorem new_status (status : σ) : (new status : ObservableStatus σ ε).status = status := rfl

@[simp] theorem new_sent (status : σ) : (new status : ObservableStatus σ ε).tx.sent = [] := rfl

@[simp] theorem send_status (o : ObservableStatus σ ε) (status : σ) :
    (o.send status).status = o.status := rfl

@[simp] theorem send_sent (o : ObservableStatus σ ε) (status : σ) :
    (o.send status).tx.sent = o.tx.sent ++ [.ok status] := rfl

@[simp] theorem errors_status (o : ObservableStatus σ ε) (errors : List ε) :
    (o.errors errors).status = o.status := by
  induction errors generalizing o with
  | nil => rfl
  | cons e errors ih => exact ih (o.error e)

@[simp] theorem errors_sent (o : ObservableStatus σ ε) (errors : List ε) :
    (o.errors errors).tx.sent = o.tx.sent ++ errors.map .error := by
  induction errors generalizing o with
  | nil => simp [ObservableStatus.errors]
  | cons e errors ih => simpa [ObservableStatus.errors, error] using ih (o.error e)

end ObservableStatus

end PhoenixChannels
