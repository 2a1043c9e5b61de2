import PhoenixChannels.Channel.Lemmas.Backoff
import PhoenixChannels.Lib.History

/-!
# Joins and the consent to them

The joins that a channel listener sends to the socket, the explicit joins of callers that they go
back to, and the leaves in between.
-/

namespace PhoenixChannels.Channel

open Machine History

variable {env : Surroundings} {w w' : World} {state : State} {branch : Branch} {flow : Flow}
variable {read : Option TxId} {now : Instant} {label : Label} {ls : List Label}
variable {past : List Event} {timeout : Duration}

/-! ## The property -/

inductive Event
  /-- An explicit join starts a joining attempt. -/
  | joins (createdAt : Instant) (timeout : Duration)
  /-- The timer of a rejoin fires. -/
  | rejoins (now : Instant)
  /-- The listener reaches `Leaving` or `Left`. -/
  | leaves
  | sends (join : PhoenixChannels.Join)

/-- The attempt that a branch starts when it is ready. -/
def started (env : Surroundings) (w : World) : State → Branch → Option Event
  | .waitingToRejoin sleep _, .sleep => if sleep ≤ env.now then some (.rejoins env.now) else none
  | state, .stateCommand =>
      match w.stateCommandRx.head? with
      | some (.join createdAt timeout _) =>
          if state.startsJoin then some (.joins createdAt timeout) else none
      | _ => none
  | _, _ => none

/-- A handler has just come to `Leaving` or `Left`. -/
def Task.hasLeft : Task → Bool
  | publishing (.leaving _) | publishing .left => true
  | _ => false

/-- The join that a step gives to the socket. -/
def givenJoin? (w : World) (label : Label) : Option PhoenixChannels.Join :=
  match given w label with
  | some (.inl (.join join)) => some join
  | _ => none

def event? (w : World) (label : Label) : Option Event :=
  match (polled w label).bind (fun (env, state, branch) => started env w state branch),
      givenJoin? w label with
  | some event, _ => some event
  | none, some join => some (.sends join)
  | none, none =>
      if (machine.step w label).any (fun w' => w'.task.hasLeft && !w.task.hasLeft) then some .leaves
      else none

def events (steps : List (World × Label)) : List Event :=
  steps.flatMap fun (w, label) => (event? w label).toList

/-- What does not touch the consent. -/
def Event.keepsConsent : Event → Bool
  | rejoins _ | sends _ => true
  | joins _ _ | leaves => false

/-- The instant from which a deadline runs: the last firing of the timer, or what was before. -/
def startedAt (createdAt : Instant) : List Event → Instant
  | [] => createdAt
  | .rejoins now :: rest => startedAt now rest
  | _ :: rest => startedAt createdAt rest

/-- The last explicit join that started an attempt asked for `timeout`; the channel has not left since,
and the attempt of now began at `start`. -/
def Consent (past : List Event) (timeout : Duration) (start : Instant) : Prop :=
  ∃ before createdAt since, past = before ++ .joins createdAt timeout :: since ∧
    (∀ event ∈ since, event.keepsConsent = true) ∧ start = startedAt createdAt since

/-- A rejoin is consented to, and so is a join that is sent, with the timeout that was asked for. -/
def Consented (past : List Event) : Event → Prop
  | .rejoins _ => ∃ timeout start, Consent past timeout start
  | .sends join => ∃ timeout start, Consent past timeout start ∧ join.deadline = start + timeout
  | .joins _ _ | .leaves => True

theorem Consent.joins (createdAt : Instant) :
    Consent (past ++ [.joins createdAt timeout]) timeout createdAt :=
  ⟨past, createdAt, [], rfl, by simp, rfl⟩

theorem startedAt_append {createdAt : Instant} {since : List Event} (event : Event) :
    startedAt createdAt (since ++ [event]) = startedAt (startedAt createdAt since) [event] := by
  induction since generalizing createdAt with
  | nil => rfl
  | cons first rest ih => cases first <;> exact ih

theorem Consent.append {start : Instant} (event : Event) (h : Consent past timeout start)
    (hkeeps : event.keepsConsent = true) :
    Consent (past ++ [event]) timeout (startedAt start [event]) := by
  obtain ⟨before, createdAt, since, rfl, hsince, rfl⟩ := h
  refine ⟨before, createdAt, since ++ [event], by simp, ?_, (startedAt_append event).symm⟩
  intro e he
  rcases List.mem_append.mp he with he | he
  · exact hsince e he
  · exact List.mem_singleton.mp he ▸ hkeeps

/-! ## The timeout that a listener carries -/

def SocketCall.isJoin : SocketCall → Bool
  | join _ _ _ _ => true
  | _ => false

/-- The timeout that the next rejoin would have. -/
def State.joinTimeout? : State → Option Duration
  | waitingForSocketToConnect rejoin => rejoin.map Rejoin.joinTimeout
  | joining j => some j.rejoin.joinTimeout
  | waitingToRejoin _ r => some r.joinTimeout
  | joined j => some j.joinTimeout
  | waitingToJoin | leaving _ | left | shuttingDown | shutDown => none

def SocketCall.joinTimeout? : SocketCall → Option Duration
  | join _ _ rejoin _ => some rejoin.joinTimeout
  | leaveJoining joining _ => some joining.rejoin.joinTimeout
  | leaveJoined joined _ | cast joined _ _ | call joined _ _ => some joined.joinTimeout

def Flow.isJoin : Flow → Bool
  | call c => c.isJoin
  | _ => false

/-- A join is about to be sent to the socket. -/
def Task.joins : Task → Bool
  | calling c => c.isJoin
  | _ => false

def Task.joinTimeout? : Task → Option Duration
  | selecting state _ _ | publishing state => state.joinTimeout?
  | calling c => c.joinTimeout?
  | exited _ | panicked _ => none

def Flow.joinTimeout? : Flow → Option Duration
  | next state _ => state.joinTimeout?
  | call c => c.joinTimeout?
  | exit _ _ | panic _ => none

theorem proceed_joinTimeout : (w.proceed flow).task.joinTimeout? = flow.joinTimeout? := by
  cases flow <;> rfl

theorem proceed_joins : (w.proceed flow).task.joins = flow.isJoin := by
  cases flow <;> rfl

theorem State.joinTimeout?_eq : state.joinTimeout? = state.rejoin?.map Rejoin.joinTimeout := by
  cases state <;> rfl

theorem Flow.joinTimeout?_eq : flow.joinTimeout? = flow.rejoin?.map Rejoin.joinTimeout := by
  cases flow with
  | next state => exact state.joinTimeout?_eq
  | call c => cases c <;> rfl
  | exit | panic => rfl

theorem Task.joinTimeout?_eq {task : Task} :
    task.joinTimeout? = task.rejoin?.map Rejoin.joinTimeout := by
  cases task with
  | selecting state | publishing state => exact state.joinTimeout?_eq
  | calling c => cases c <;> rfl
  | exited | panicked => rfl

theorem Flow.joinTimeout?_joined {joined : Joined} (h : flow.joined? = some joined) :
    flow.joinTimeout? = some joined.joinTimeout := by
  cases flow with
  | next state =>
      cases state <;> cases h
      rfl
  | call c => cases c <;> cases h <;> rfl
  | exit | panic => cases h

/-- A handler goes on with the timeout of what it carries. -/
theorem NextFlow.joinTimeout {carried : Option Rejoin} (h : NextFlow now state carried flow)
    (ht : flow.joinTimeout? = some timeout) : carried.map Rejoin.joinTimeout = some timeout := by
  cases h with
  | kept _ hkept =>
      rw [Flow.joinTimeout?_eq, Option.map_eq_some_iff] at ht
      obtain ⟨r, hr, rfl⟩ := ht
      rw [hkept r hr, Option.map_some]
  | joins hr _ hjoined htimeout =>
      rw [Flow.joinTimeout?_joined hjoined, htimeout] at ht
      rw [hr, Option.map_some, ht]
  | waits hr hflow =>
      rw [hflow] at ht
      rw [hr, Option.map_some]
      exact ht

/-! ## Steps -/

/-- What a step does to the consent: it keeps what is carried, or it is one of the events. -/
inductive ConsentCase (w : World) (label : Label) (w' : World) : Prop
  | keeps : event? w label = none →
      (∀ t, w'.task.joinTimeout? = some t → w.task.joinTimeout? = some t) →
      w'.task.joins = false ∨ w'.task = w.task → ConsentCase w label w'
  | joins {createdAt timeout} : event? w label = some (.joins createdAt timeout) →
      (∀ t, w'.task.joinTimeout? = some t → t = timeout) →
      (∀ leaves deadline rejoin txs, w'.task = .calling (.join leaves deadline rejoin txs) →
        deadline = createdAt + timeout) → ConsentCase w label w'
  | rejoins {state now rejoin txs} : event? w label = some (.rejoins now) →
      w.task.joinTimeout? = some rejoin.joinTimeout →
      w'.task = .calling (.join state (now + rejoin.joinTimeout) rejoin txs) → ConsentCase w label w'
  | sends {state deadline rejoin txs join} : event? w label = some (.sends join) →
      w.task = .calling (.join state deadline rejoin txs) → join.deadline = deadline →
      w'.task.joinTimeout? = some rejoin.joinTimeout → (∀ c, w'.task ≠ .calling c) →
      ConsentCase w label w'
  | leaves : event? w label = some .leaves → w'.task.joinTimeout? = none → ConsentCase w label w'

theorem joinTimeout_of_hasLeft {task : Task} (h : task.hasLeft = true) :
    task.joinTimeout? = none := by
  cases task with
  | publishing state => cases state <;> first | rfl | cases h
  | _ => cases h

theorem ConsentCase.plain (hstep : machine.step w label = some w')
    (hstarted : ∀ x, polled w label = some x → started x.1 w x.2.1 x.2.2 = none)
    (hgiven : givenJoin? w label = none)
    (htimeout : ∀ t, w'.task.joinTimeout? = some t → w.task.joinTimeout? = some t)
    (hcalling : w'.task.joins = false ∨ w'.task = w.task) :
    ConsentCase w label w' := by
  have hevent : event? w label =
      if (w'.task.hasLeft && !w.task.hasLeft) = true then some .leaves else none := by
    have hnone : (polled w label).bind (fun (env, state, branch) => started env w state branch) =
        none := by
      rw [Option.bind_eq_none_iff]
      exact hstarted
    unfold event?
    rw [hnone, hgiven]
    simp [hstep]
  by_cases hleft : (w'.task.hasLeft && !w.task.hasLeft) = true
  · refine .leaves (by rw [hevent, if_pos hleft]) (joinTimeout_of_hasLeft ?_)
    exact (Bool.and_eq_true_iff.mp hleft).1
  · exact .keeps (by rw [hevent, if_neg hleft]) htimeout hcalling

theorem started_of_not_ready (h : ∀ w' flow, w.pollBranch env state branch ≠ .ready w' flow) :
    started env w state branch = none := by
  cases branch with
  | stateCommand =>
      have hnone : w.stateCommandRx.head? = none := by
        cases hrx : w.stateCommandRx with
        | nil => rfl
        | cons command rest => exact absurd (pollBranch_stateCommand hrx) (h _ _)
      simp [started, hnone]
  | sleep =>
      cases state with
      | waitingToRejoin sleep r =>
          by_cases hnow : sleep ≤ env.now
          · exact absurd (by simp [World.pollBranch, hnow])
              (h w (rejoin env.now (.waitingToRejoin sleep r) r))
          · simp [started, hnow]
      | _ => rfl
  | _ => cases state <;> rfl

theorem started_eq_none (hsleep : branch ≠ .sleep) (hcommand : branch ≠ .stateCommand) :
    started env w state branch = none := by
  cases branch with
  | sleep => exact absurd rfl hsleep
  | stateCommand => exact absurd rfl hcommand
  | _ => cases state <;> rfl

theorem started_stateCommand {command : StateCommand} {rest : List StateCommand}
    (hrx : w.stateCommandRx = command :: rest) :
    started env w state .stateCommand = match command with
      | .join createdAt timeout _ =>
          if state.startsJoin then some (.joins createdAt timeout) else none
      | .leave _ => none := by
  cases state <;> cases command <;> simp [started, hrx]

/-- A branch that starts nothing goes on with what the listener carries. -/
theorem entered_of_unstarted (h : started env w state branch = none) :
    w.entered state branch = state.rejoin? := by
  have hattempt : attempt? w state branch = none := by
    cases branch with
    | stateCommand =>
        cases hrx : w.stateCommandRx with
        | nil => simp only [attempt?, hrx]
        | cons command rest =>
            rw [started_stateCommand hrx] at h
            cases command with
            | join createdAt timeout tx => simpa [attempt?, hrx] using h
            | leave tx => simp only [attempt?, hrx]
    | _ => rfl
  rw [World.entered, hattempt, Option.map_none, Option.none_or]

theorem updateState_isJoin {command : StateCommand}
    (hplain : ∀ createdAt timeout tx, command = .join createdAt timeout tx →
      state.startsJoin = false) : (updateState now state command).isJoin = false := by
  cases command with
  | join createdAt timeout tx =>
      have hstarts := hplain createdAt timeout tx rfl
      cases state with
      | waitingToJoin | leaving | left => cases hstarts
      | _ => rfl
  | leave tx => cases state <;> rfl

theorem BranchReady.consent_cases {rest disabled : List Branch}
    (htask : w.task = .selecting state (branch :: rest) disabled)
    (h : BranchReady env w state branch w' flow)
    (hstep : machine.step w (.poll env) = some (w'.proceed flow)) :
    ConsentCase w (.poll env) (w'.proceed flow) := by
  have hpolled : polled w (.poll env) = some (env, state, branch) := by simp [polled, htask]
  have hnext := h.nextFlow
  have plain : started env w state branch = none → flow.isJoin = false →
      ConsentCase w (.poll env) (w'.proceed flow) := by
    intro hstarted hcall
    refine .plain hstep ?_ rfl ?_ (.inl ?_)
    · intro x hx
      rw [hpolled] at hx
      cases hx
      exact hstarted
    · intro t ht
      rw [proceed_joinTimeout] at ht
      have hcarried := hnext.joinTimeout ht
      rw [entered_of_unstarted hstarted, ← State.joinTimeout?_eq] at hcarried
      rw [htask]
      exact hcarried
    · rw [proceed_joins]
      exact hcall
  have other : branch ≠ .sleep ∧ branch ≠ .stateCommand → started env w state branch = none :=
    fun h => started_eq_none h.1 h.2
  cases h with
  | shutdown | connectivity | socketJoined | socketJoinedClosed | left | socketLeft | push
  | broadcast => exact plain (other (by decide)) rfl
  | @sleep sleep r hnow =>
      have hevent : event? w (.poll env) = some (.rejoins env.now) := by
        simp [event?, hpolled, started, hnow]
      exact .rejoins hevent (by rw [htask]; rfl) rfl
  | @stateCommand state command rest hrx =>
      have hstarted : started env w state .stateCommand = _ := started_stateCommand hrx
      cases command with
      | leave tx => exact plain hstarted (updateState_isJoin (by simp))
      | join createdAt timeout tx =>
          cases hstarts : state.startsJoin with
          | false =>
              simp only [hstarts, Bool.false_eq_true, ↓reduceIte] at hstarted
              exact plain hstarted (updateState_isJoin fun _ _ _ _ => hstarts)
          | true =>
              simp only [hstarts, ↓reduceIte] at hstarted
              have hevent : event? w (.poll env) = some (.joins createdAt timeout) := by
                simp [event?, hpolled, hstarted]
              have hentered : w.entered state .stateCommand = some ⟨timeout, 0⟩ := by
                simp [World.entered, attempt?, hrx, hstarts]
              refine .joins hevent (fun t ht => ?_) ?_
              · rw [proceed_joinTimeout] at ht
                have hcarried := hnext.joinTimeout ht
                rw [hentered] at hcarried
                exact (Option.some.inj hcarried).symm
              · intro leaves deadline rejoin txs hc
                rw [updateState_startsJoin hstarts] at hc
                simp only [socketJoinIfNotTimedOut, socketJoin] at hc
                split at hc <;> cases hc
                rfl
  | @sendCommand joined command =>
      refine plain (other (by decide)) ?_
      cases command <;> rfl

theorem consent_cases (hstep : machine.step w label = some w') : ConsentCase w label w' := by
  have idle : polled w label = none → givenJoin? w label = none →
      (∀ t, w'.task.joinTimeout? = some t → w.task.joinTimeout? = some t) →
      w'.task.joins = false ∨ w'.task = w.task → ConsentCase w label w' := by
    intro hpolled
    refine .plain hstep ?_
    simp [hpolled]
  have same : ∀ {timeout? timeout?' : Option Duration}, timeout?' = timeout? →
      ∀ t, timeout?' = some t → timeout? = some t := fun h t ht => h ▸ ht
  cases step_cases hstep with
  | asked | stateCommand | sendCommand => exact idle rfl rfl (same rfl) (.inr rfl)
  | @poll env w' read hpoll =>
      cases hpoll with
      | breakOk htask =>
          refine idle (by simp [polled, htask]) rfl ?_ (.inl rfl)
          intro t ht
          cases ht
      | round htask =>
          exact idle (by simp [polled, htask]) rfl (same (by rw [htask]; rfl)) (.inl rfl)
      | pending htask hpolled =>
          refine .plain hstep ?_ rfl (same (by rw [htask]; rfl)) (.inl rfl)
          intro x hx
          simp only [polled, htask, Option.some.injEq] at hx
          subst hx
          exact started_of_not_ready (by simp [hpolled])
      | mismatch htask hmismatch hpolled =>
          refine .plain hstep ?_ rfl (same ?_) (.inl rfl)
          · intro x hx
            simp only [polled, htask, Option.some.injEq] at hx
            subst hx
            exact started_of_not_ready (by simp [hpolled])
          · rw [htask]
            cases hmismatch <;> rfl
      | ready htask hready => exact hready.consent_cases htask hstep
  | @sent c fresh htask =>
      have hgiven : given w (.sent fresh) = some (c.command w.listener fresh) := by
        simp [given, htask]
      cases c with
      | join state deadline rejoin txs =>
          have hevent : event? w (.sent fresh) = some (.sends ⟨w.listener.topic,
              w.listener.joinReference, w.listener.payload, deadline, fresh⟩) := by
            simp only [event?, givenJoin?, hgiven, polled, SocketCall.command]
            rfl
          refine .sends hevent htask rfl rfl ?_
          intro c hc
          cases hc
      | leaveJoining | leaveJoined =>
          refine idle rfl (by simp [givenJoin?, hgiven, SocketCall.command]) ?_ (.inl rfl)
          intro t ht
          cases ht
      | cast | call =>
          exact idle rfl (by simp [givenJoin?, hgiven, SocketCall.command])
            (same (by rw [htask]; rfl)) (.inl rfl)
  | @failed c shutdownError htask =>
      have hjoins : (w.failed c shutdownError).task.joins = false := by
        cases shutdownError with
        | error => rfl
        | ok error =>
            cases c with
            | join state => cases state <;> rfl
            | _ => rfl
      refine idle rfl rfl ?_ (.inl hjoins)
      intro t ht
      rw [Task.joinTimeout?_eq, Option.map_eq_some_iff] at ht ⊢
      obtain ⟨r, hr, hcarried⟩ := ht
      rw [htask]
      exact ⟨r, failed_rejoin? hr, hcarried⟩
  | publish htask => exact idle rfl rfl (same (by rw [htask]; rfl)) (.inl rfl)

/-! ## Runs -/

/-- What a listener carries was consented to. -/
structure CarriesConsent (past : List Event) (w : World) : Prop where
  carried : ∀ t, w.task.joinTimeout? = some t → ∃ start, Consent past t start
  suspended : ∀ state deadline rejoin txs, w.task = .calling (.join state deadline rejoin txs) →
    ∃ start, Consent past rejoin.joinTimeout start ∧ deadline = start + rejoin.joinTimeout

theorem ConsentCase.carriesConsent (h : ConsentCase w label w') (hw : CarriesConsent past w) :
    CarriesConsent (past ++ (event? w label).toList) w' ∧
      ∀ event, event? w label = some event → Consented past event := by
  cases h with
  | keeps hevent htimeout hcalling =>
      rw [hevent, Option.toList_none, List.append_nil]
      refine ⟨⟨fun t ht => hw.carried t (htimeout t ht), ?_⟩, nofun⟩
      intro state deadline rejoin txs hc
      rcases hcalling with hjoins | hsame
      · rw [hc] at hjoins
        cases hjoins
      · exact hw.suspended state deadline rejoin txs (hsame.symm.trans hc)
  | joins hevent htimeout hdeadline =>
      rw [hevent]
      refine ⟨⟨?_, ?_⟩, fun event h => Option.some.inj h ▸ trivial⟩
      · intro t ht
        exact htimeout t ht ▸ ⟨_, .joins _⟩
      · intro state deadline rejoin txs hc
        have ht := htimeout rejoin.joinTimeout (by rw [hc]; rfl)
        exact ⟨_, ht ▸ .joins _, ht ▸ hdeadline state deadline rejoin txs hc⟩
  | @rejoins state now rejoin txs hevent htimeout htask =>
      obtain ⟨start, hconsent⟩ := hw.carried _ htimeout
      have hnext := hconsent.append (.rejoins now) rfl
      rw [hevent]
      refine ⟨⟨?_, ?_⟩, fun event h => Option.some.inj h ▸ ⟨_, start, hconsent⟩⟩
      · intro t ht
        rw [htask] at ht
        exact Option.some.inj ht ▸ ⟨_, hnext⟩
      · intro state deadline rejoin txs hc
        rw [htask] at hc
        cases hc
        exact ⟨_, hnext, rfl⟩
  | @sends state deadline rejoin txs join hevent htask hdeadline htimeout hcalling =>
      obtain ⟨start, hconsent, hstart⟩ := hw.suspended _ _ _ _ htask
      rw [hevent]
      refine ⟨⟨?_, fun _ _ _ _ hc => absurd hc (hcalling _)⟩, ?_⟩
      · intro t ht
        rw [htimeout] at ht
        exact Option.some.inj ht ▸ ⟨_, hconsent.append (.sends join) rfl⟩
      · intro event h
        exact Option.some.inj h ▸ ⟨_, start, hconsent, hdeadline.trans hstart⟩
  | leaves hevent htimeout =>
      rw [hevent]
      refine ⟨⟨?_, ?_⟩, fun event h => Option.some.inj h ▸ trivial⟩
      · intro t ht
        rw [htimeout] at ht
        cases ht
      · intro state deadline rejoin txs hc
        rw [hc] at htimeout
        cases htimeout

theorem consented_of_run {ok : World → Label → Prop} {listener : Listener} {before : Socket.State}
    {seen : Nat} (h : Run machine ok (start listener before seen) ls w) :
    Always Consented (events (machine.steps (start listener before seen) ls)) := by
  refine (h.history (I := fun past w => CarriesConsent (events past) w ∧
    Always Consented (events past)) ?_ ?_).2
  · refine ⟨⟨?_, nofun⟩, .nil⟩
    cases before <;> exact nofun
  intro ls past w label w' _ ih _ hs
  obtain ⟨hcarries, hconsented⟩ := ih
  obtain ⟨hnext, hevent⟩ := (consent_cases hs).carriesConsent hcarries
  have happend : events (past ++ [(w, label)]) = events past ++ (event? w label).toList := by
    rw [events, List.flatMap_append, List.flatMap_singleton, events]
  rw [happend]
  refine ⟨hnext, ?_⟩
  cases h : event? w label with
  | none => simpa using hconsented
  | some event => exact hconsented.append (hevent event h)

end PhoenixChannels.Channel
