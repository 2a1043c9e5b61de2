import PhoenixChannels.Presences.Lemmas.Users
import PhoenixChannels.Presences.Theorems

/-!
# Lists and syncs

A list that a user gets was the map of the listener while the call was waiting. A user who lists after
the last sync has the map as it is. Every call can return.
-/

namespace PhoenixChannels.Presences

open Machine
open Socket (lobbyReference)
open PhoenixChannels.System (joinedLobby)

namespace Users

variable {strategy : Option (Nat → Duration)} {u u' u₁ u₂ : Users} {label : Label}
variable {ok : Users → Label → Prop} {ls ls₁ ls₂ : List Label} {i j : Nat} {op : Operation}
variable {s₀ : System} {c : JoinReference} {values : List Presence}

/-! ## Snapshots -/

/-- The list was the map of the listener when it answered the call, which was waiting for it. -/
def Answered (past : List (Users × Label)) (i : Nat) (values : List Presence) : Prop :=
  ∃ u, (u, Label.client .list) ∈ past ∧ u.operations[i]? = some ⟨.list, .waiting⟩ ∧
    values = Dict.values u.presenceByKey

theorem answered_of_run (h : Run (machine strategy) ok (spawn s₀ c) ls u)
    (hmem : (i, values) ∈ u.answered) :
    Answered ((machine strategy).steps (spawn s₀ c) ls) i values := by
  refine h.history (I := fun past u => ∀ i values, (i, values) ∈ u.answered →
    Answered past i values) (by simp [spawn]) ?_ i values hmem
  intro ls past u label u' hrun ih _ hs i values hmem
  have older : (i, values) ∈ u.answered → Answered (past ++ [(u, label)]) i values := by
    intro hmem
    obtain ⟨v, hv, hwaiting, hvalues⟩ := ih i values hmem
    exact ⟨v, List.mem_append_left _ hv, hwaiting, hvalues⟩
  cases step_cases hs with
  | client h =>
      cases h with
      | list hrx =>
          rcases List.mem_append.mp hmem with hmem | hmem
          · exact older hmem
          · cases List.mem_singleton.mp hmem
            have hwaiting := (queued_of_run hrun).waiting (hrx ▸ List.mem_cons_self)
            exact ⟨u, by simp, hwaiting, rfl⟩
      | _ => exact older hmem
  | call _ h => cases h <;> exact older hmem
  | _ => exact older hmem

/-- A list that a call returns was the map of the listener while the call waited. Only from a listener
that has ended can it get the empty list instead, or an error. -/
structure ListsAreSnapshots (past : List (Users × Label)) (u : Users) : Prop where
  listed {i : Nat} {values : List Presence} :
    u.operations[i]? = some ⟨.list, .returned (.ok (some values))⟩ →
      Answered past i values ∨ values = [] ∧ u.isEnded = true
  failed {i : Nat} {error : ShutdownError} :
    u.operations[i]? = some ⟨.list, .returned (.error error)⟩ → u.isEnded = true

theorem listsAreSnapshots (h : Run (machine strategy) ok (spawn s₀ c) ls u) :
    ListsAreSnapshots ((machine strategy).steps (spawn s₀ c) ls) u := by
  constructor
  · intro i values hop
    exact ((queued_of_run h).returned hop).imp_left (answered_of_run h)
  · intro i error hop
    rcases (finishing_of_run h).late hop rfl with hended | ⟨hrequest, _⟩
    · exact hended
    · cases hrequest

/-- A subscriber of the syncs reads the first one. -/
def readSync : List Label :=
  ([.start] : List Client.Label).map .client ++ [.subscribe]
    ++ (takeState ++ ([.receive .written] : List Client.Label)).map .client ++ [.sync 0]

/-- A user lists, as call number 0, and the listener answers. -/
def list : List Label := [.begin .list, .advance 0, .client .list, .advance 0]

/-- `Channel::presences` is called on the joined lobby, and the run goes on with `ls`. -/
def onLobby (ls : List Label) (s₀ : System) : Option Users :=
  (machine none).exec Free (spawn s₀ lobbyReference) ls

/-- How many presences a call has listed. -/
def listed? (u : Users) (i : Nat) : Option Nat :=
  match u.operations[i]? with
  | some ⟨.list, .returned (.ok (some values))⟩ => some values.length
  | _ => none

theorem listed_cases {n : Nat} (h : u.listed? i = some n) :
    ∃ values, u.operations[i]? = some ⟨.list, .returned (.ok (some values))⟩ ∧ values.length = n := by
  unfold listed? at h
  split at h
  · cases h
    exact ⟨_, ‹_›, rfl⟩
  · cases h

theorem listsAreSnapshots_list :
    ∃ s₀ u, Run (System.machine none) Free System.init joinedLobby s₀ ∧
      Run (machine none) Free (spawn s₀ lobbyReference) (readSync ++ list) u ∧
      u.listed? 0 = some 1 ∧
      ListsAreSnapshots ((machine none).steps (spawn s₀ lobbyReference) (readSync ++ list)) u := by
  obtain ⟨s₀, h₀, hs⟩ := exists_run (M := System.machine none)
    (show (Machine.exec _ Free System.init joinedLobby).map (fun s₀ =>
      (onLobby (readSync ++ list) s₀).map (fun u => u.listed? 0)) = some (some (some 1))
      by decide +kernel)
  obtain ⟨u, hrun, hu⟩ := exists_run (M := machine none) hs
  exact ⟨s₀, u, h₀, hrun, hu, listsAreSnapshots hrun⟩

/-! ## Lists after syncs -/

/-- Since `v`, the lists of later calls were the map as it is, or a sync was sent. -/
def CurrentSince (v u : Users) : Prop :=
  v.syncTx.sent.length ≤ u.syncTx.sent.length ∧
    (u.syncTx.sent.length = v.syncTx.sent.length → ∀ i values, v.operations.length ≤ i →
      (i, values) ∈ u.answered → values = Dict.values u.presenceByKey)

theorem CurrentSince.step {v : Users} (h : CurrentSince v u) (hstep : UsersStep u label u') :
    CurrentSince v u' := by
  obtain ⟨hgrows, hmap⟩ := hstep.map_cases
  refine ⟨Nat.le_trans h.1 hgrows, ?_⟩
  intro hsame i values hi hmem
  have hsince : u.syncTx.sent.length = v.syncTx.sent.length := by
    have := h.1
    omega
  have hkept : u'.presenceByKey = u.presenceByKey := by
    rcases hmap with hkept | hlt
    · exact hkept
    · omega
  rw [hkept]
  cases hstep with
  | client hlistener =>
      cases hlistener with
      | list =>
          rcases List.mem_append.mp hmem with hmem | hmem
          · exact h.2 hsince i values hi hmem
          · cases List.mem_singleton.mp hmem
            rfl
      | _ => exact h.2 hsince i values hi hmem
  | call _ hcall => cases hcall <;> exact h.2 hsince i values hi hmem
  | _ => exact h.2 hsince i values hi hmem

/-- Whoever lists after it has read a sync, and has no later one to read, has the map as it is. -/
theorem listsAreCurrent (h₁ : Run (machine strategy) ok (spawn s₀ c) ls₁ u₁)
    (h₂ : Run (machine strategy) ok u₁ ls₂ u₂) {next : Nat} (hread : u₁.syncs[j]? = some next)
    (hunread : u₂.syncTx.sent.length ≤ next) (hlater : u₁.operations.length ≤ i)
    (hop : u₂.operations[i]? = some ⟨.list, .returned (.ok (some values))⟩)
    (hrunning : u₂.isEnded = false) : values = Dict.values u₂.presenceByKey := by
  have hcurrent : CurrentSince u₁ u₂ := by
    refine h₂.invariant (I := CurrentSince u₁) ?_ fun u label u' ih _ hs => ih.step (step_cases hs)
    refine ⟨Nat.le_refl _, fun _ i values hi hmem => ?_⟩
    obtain ⟨op, hop, _⟩ := (queued_of_run h₁).sent hmem
    have hlt := (List.getElem?_eq_some_iff.mp hop).1
    omega
  have hle := syncs_le_of_run h₁ j next hread
  have hsame : u₂.syncTx.sent.length = u₁.syncTx.sent.length := by
    have := hcurrent.1
    omega
  rcases (queued_of_run (h₁.trans h₂)).returned hop with hmem | ⟨_, hended⟩
  · exact hcurrent.2 hsame i values hlater hmem
  · cases hrunning.symm.trans hended

/-- The subscriber has read one sync and there is no call; with what the first call lists. -/
def readThenListed (u₁ : Users) : Bool × Option Bool :=
  (u₁.syncs[0]? = some 1 ∧ u₁.operations.length = 0,
    ((machine none).exec Free u₁ list).map fun u₂ =>
      u₂.syncTx.sent.length = 1 ∧ u₂.listed? 0 = some 1 ∧ u₂.isEnded = false)

theorem listsAreCurrent_list :
    ∃ s₀ u₁ u₂ values, Run (System.machine none) Free System.init joinedLobby s₀ ∧
      Run (machine none) Free (spawn s₀ lobbyReference) readSync u₁ ∧
      Run (machine none) Free u₁ list u₂ ∧ List.length values = 1 ∧
      values = Dict.values u₂.presenceByKey := by
  obtain ⟨s₀, h₀, hs⟩ := exists_run (M := System.machine none)
    (show (Machine.exec _ Free System.init joinedLobby).map (fun s₀ =>
      (onLobby readSync s₀).map readThenListed) = some (some (true, some true)) by decide +kernel)
  obtain ⟨u₁, h₁, hu₁⟩ := exists_run (M := machine none) hs
  obtain ⟨hread, hlist⟩ := Prod.mk.inj hu₁
  obtain ⟨u₂, h₂, hu₂⟩ := exists_run (M := machine none) hlist
  simp only [decide_eq_true_eq] at hread hu₂
  obtain ⟨hread, hnone⟩ := hread
  obtain ⟨hsent, hlisted, hrunning⟩ := hu₂
  obtain ⟨values, hop, hlength⟩ := listed_cases hlisted
  exact ⟨s₀, u₁, u₂, values, h₀, h₁, h₂, hlength,
    listsAreCurrent h₁ h₂ hread (Nat.le_of_eq hsent) (Nat.le_of_eq hnone) hop hrunning⟩

/-! ## Every call can finish -/

theorem UsersStep.operations_length (h : UsersStep u label u') :
    u.operations.length ≤ u'.operations.length := by
  cases h with
  | client h => cases h <;> exact Nat.le_refl _
  | call _ h => cases h <;> simp [setPhase]
  | begin => simp
  | subscribe | sync | drop => exact Nat.le_refl _

def phaseRank : Phase → Nat
  | .sending => 4
  | .waiting => 3
  | .closing => 2
  | .joining => 1
  | .returned _ => 0

/-- How far the task is from its end. -/
def taskRank (u : Users) : Nat :=
  match u.client.presences.task with
  | .spawned => 2
  | .listening _ => 1
  | .ended => 0

def rank (u : Users) (i : Nat) : Nat :=
  3 * ((u.operations[i]?.map fun op => phaseRank op.phase).getD 0) + u.listRx.length + u.taskRank

/-- The call has returned. -/
def IsOver (u : Users) (i : Nat) : Prop := ∃ op, u.operations[i]? = some op ∧ op.phase.isOver = true

/-- The steps that serve the call `i`: it goes on itself, and the listener is scheduled, answers the
head of its queue, or ends when it was shut down. No other call goes on, and nothing is read. -/
def Label.serves (i : Nat) : Label → Bool
  | .advance j => j = i
  | .client .start | .client .list | .client .shutdown => true
  | _ => false

/-- A step that serves the call brings it closer to its end. -/
def Nears (strategy : Option (Nat → Duration)) (u : Users) (i : Nat) : Prop :=
  ∃ label u', label.serves i = true ∧ (machine strategy).step u label = some u' ∧
    (IsOver u' i ∨ u'.rank i < u.rank i)

theorem nears_of_spawned (htask : u.client.presences.task = .spawned) : Nears strategy u i := by
  refine ⟨.client .start, _, rfl,
    by simp [machine, step, clientStep, Client.step, htask]; rfl, .inr ?_⟩
  simp [rank, taskRank, htask, Client.setTask, Client.setPresences]

theorem nears_of_listening {next k : Nat} {rest : List Nat}
    (htask : u.client.presences.task = .listening next) (hrx : u.listRx = k :: rest) :
    Nears strategy u i := by
  refine ⟨.client .list, _, rfl,
    by simp [machine, step, clientStep, Client.step, htask, hrx]; rfl, .inr ?_⟩
  simp [rank, taskRank, htask, hrx, Client.setPresences]

theorem nears_of_shutdown {next : Nat} (htask : u.client.presences.task = .listening next)
    (hrx : u.shutdownRx = true) : Nears strategy u i := by
  refine ⟨.client .shutdown, _, rfl,
    by simp [machine, step, clientStep, Client.step, htask, hrx]; rfl, .inr ?_⟩
  simp only [rank, taskRank, htask, Client.setTask, Client.setPresences, List.length_nil]
  omega

theorem nears_of_advance {v : Users} {phase : Phase} (hop : u.operations[i]? = some op)
    (hstep : u.advance i = some (v.setPhase i op phase)) (hoperations : v.operations = u.operations)
    (hlength : v.listRx.length ≤ u.listRx.length + 1) (hclient : v.client = u.client)
    (hlt : phaseRank phase < phaseRank op.phase) : Nears strategy u i := by
  refine ⟨.advance i, _, by simp [Label.serves], hstep, .inr ?_⟩
  have hop' : v.operations[i]? = some op := hoperations ▸ hop
  simp only [rank, setPhase_getElem? hop', hop, if_true, Option.map_some, Option.getD_some]
  have htask : (v.setPhase i op phase).taskRank = u.taskRank := by
    simp only [taskRank, Users.setPhase, hclient]
  have hrx : (v.setPhase i op phase).listRx = v.listRx := rfl
  rw [htask, hrx]
  omega

/-- A listener that has not ended can go on where a call waits for it. -/
theorem nears_of_running (hrunning : u.isEnded = false)
    (hgoes : u.listRx ≠ [] ∨ u.shutdownRx = true) : Nears strategy u i := by
  cases htask : u.client.presences.task with
  | spawned => exact nears_of_spawned htask
  | listening next =>
      rcases hgoes with hne | hrx
      · obtain ⟨k, rest, hrx⟩ := List.exists_cons_of_ne_nil hne
        exact nears_of_listening htask hrx
      · exact nears_of_shutdown htask hrx
  | ended => simp [isEnded, htask] at hrunning

theorem over_or_nears (h : Finishing u) (hop : u.operations[i]? = some op) :
    op.phase.isOver = true ∨ Nears strategy u i := by
  cases hphase : op.phase with
  | returned result => exact .inl rfl
  | sending =>
      right
      cases hrequest : op.request with
      | list =>
          cases hended : u.isEnded with
          | true =>
              exact nears_of_advance hop (by simp [advance, hop, hphase, hrequest, hended]; rfl) rfl
                (Nat.le_succ _) rfl (by simp [phaseRank, hphase])
          | false =>
              by_cases hroom : u.listRx.length < listCapacity
              · have hstep : u.advance i =
                    some ({ u with listRx := u.listRx ++ [i] }.setPhase i op .waiting) := by
                  simp [advance, hop, hphase, hrequest, hended, hroom]
                exact nears_of_advance hop hstep rfl (by simp) rfl (by simp [phaseRank, hphase])
              · refine nears_of_running hended (.inl ?_)
                rintro hnil
                simp [hnil, listCapacity] at hroom
      | shutdown =>
          have hstep : u.advance i = some ({ u with
              shutdownTx := false
              shutdownRx := u.shutdownRx || u.shutdownTx }.setPhase i op .closing) := by
            simp [advance, hop, hphase, hrequest]
          exact nears_of_advance hop hstep rfl (Nat.le_succ _) rfl (by simp [phaseRank, hphase])
  | waiting =>
      right
      cases hfind : u.answered.find? (fun answer => answer.1 = i) with
      | some answer =>
          exact nears_of_advance hop (by simp [advance, hop, hphase, hfind]; rfl) rfl
            (Nat.le_succ _) rfl (by simp [phaseRank, hphase])
      | none =>
          by_cases hmem : i ∈ u.listRx
          · refine nears_of_running ?_ (.inl (List.ne_nil_of_mem hmem))
            cases hended : u.isEnded with
            | true =>
                rw [h.emptied hended] at hmem
                cases hmem
            | false => rfl
          · exact nears_of_advance hop (by simp [advance, hop, hphase, hfind, hmem]; rfl) rfl
              (Nat.le_succ _) rfl (by simp [phaseRank, hphase])
  | closing =>
      right
      cases hhandle : u.joinHandle with
      | true =>
          have hstep : u.advance i =
              some ({ u with joinHandle := false }.setPhase i op .joining) := by
            simp [advance, hop, hphase, hhandle]
          exact nears_of_advance hop hstep rfl (Nat.le_succ _) rfl (by simp [phaseRank, hphase])
      | false =>
          exact nears_of_advance hop (by simp [advance, hop, hphase, hhandle]; rfl) rfl
            (Nat.le_succ _) rfl (by simp [phaseRank, hphase])
  | joining =>
      right
      cases hended : u.isEnded with
      | true =>
          cases hrequest : op.request <;>
            exact nears_of_advance hop (by simp [advance, hop, hphase, hended, hrequest]; rfl) rfl
              (Nat.le_succ _) rfl (by simp [phaseRank, hphase])
      | false =>
          rcases h.late hop (by rw [hphase]; rfl) with hended' | ⟨_, hrx⟩
          · cases hended.symm.trans hended'
          · exact nears_of_running hended (.inr hrx)

/-- From every reachable state, every call can return by steps that serve it: the listener answers it,
or has ended. -/
theorem callsFinish (h : Run (machine strategy) ok (spawn s₀ c) ls u)
    (hi : i < u.operations.length) :
    ∃ ls' u', Run (machine strategy) (fun _ l => l.serves i = true) u ls' u' ∧ IsOver u' i := by
  have hI : Finishing u ∧ i < u.operations.length := ⟨finishing_of_run h, hi⟩
  refine exists_run_of_rank (I := fun u => Finishing u ∧ i < u.operations.length)
    (fun u => u.rank i) ?_ hI
  intro u ⟨hfinishing, hi⟩
  obtain ⟨op, hop⟩ : ∃ op, u.operations[i]? = some op := ⟨_, List.getElem?_eq_getElem hi⟩
  have hnext : op.phase.isOver = true ∨ Nears strategy u i := over_or_nears hfinishing hop
  rcases hnext with hover | ⟨label, u', hserves, hs, hnears⟩
  · exact .inl ⟨op, hop, hover⟩
  · refine .inr ⟨label, u', hserves, hs, hnears.imp_right fun hlt => ⟨⟨?_, ?_⟩, hlt⟩⟩
    · exact (step_cases hs).finishing hfinishing
    · exact Nat.lt_of_lt_of_le hi (step_cases hs).operations_length

theorem callsFinish_list :
    ∃ s₀ u, Run (System.machine none) Free System.init joinedLobby s₀ ∧
      Run (machine none) Free (spawn s₀ lobbyReference) [.begin .list] u ∧
      ∃ ls' u', Run (machine none) (fun _ l => l.serves 0 = true) u ls' u' ∧ IsOver u' 0 := by
  obtain ⟨s₀, h₀, hs⟩ := exists_run (M := System.machine none)
    (show (Machine.exec _ Free System.init joinedLobby).map (fun s₀ =>
      (onLobby [.begin .list] s₀).map (fun u => u.operations.length)) = some (some 1)
      by decide +kernel)
  obtain ⟨u, hrun, hlength⟩ := exists_run (M := machine none) hs
  have hlt : 0 < u.operations.length := Nat.lt_of_lt_of_eq Nat.zero_lt_one hlength.symm
  exact ⟨s₀, u, h₀, hrun, callsFinish hrun hlt⟩

end Users

end PhoenixChannels.Presences
